import BoardLink.Decimal.Shortest
import BoardLink.MessagePack.Value
import BoardLink.Text.Quoted

/-!
# Values as text

Messages show values in two ways. `Value.render` is the short form, in which an array of three
numbers is `[1, 2, 3]`. `Value.inspect` is the long form, which names the kind of every value and so
tells a byte block from an array of small numbers.
-/

namespace BoardLink.MessagePack

open BoardLink.Decimal

/-- Floats in the short form never have an exponent, and whole numbers no point. -/
def renderedFloat : Layout := ⟨false, none⟩

/-- Floats in the long form always have a point or an exponent; the exponent appears below
`10 ^ (-4)` and from `10 ^ 16` on. -/
def inspectedFloat : Layout := ⟨true, some (-4, 15)⟩

/-- The texts of a list's members between brackets. -/
def bracketed (opening closing : String) (members : List String) : String :=
  opening ++ ", ".intercalate members ++ closing

/-- Bytes as a list of numbers. -/
def renderBytes (bytes : Bytes) : String :=
  bracketed "[" "]" (bytes.map fun b => toString b.toNat)

/-- A float of the given format and layout. -/
def writeFloat (l : Layout) (f : BinaryFormat) (bits : Nat) : String :=
  l.write (f.read bits)

mutual
/-- The short form of a value. -/
def Value.render : Value → String
  | .nil => "nil"
  | .bool b => if b then "true" else "false"
  | .int n => toString n.val
  | .f32 bits => writeFloat renderedFloat binary32 bits.toNat
  | .f64 bits => writeFloat renderedFloat binary64 bits.toNat
  | .str s => quoted s
  | .badStr bytes => renderBytes bytes
  | .bin bytes => renderBytes bytes
  | .array items => bracketed "[" "]" (renderAll items)
  | .map entries => bracketed "\x7b" "\x7d" (renderEntries entries)
  | .ext type data => bracketed "[" "]" [toString type.toInt, renderBytes data]

/-- The short forms of the members of an array. -/
def renderAll : List Value → List String
  | [] => []
  | v :: rest => v.render :: renderAll rest

/-- The entries of a map as `key: value`. -/
def renderEntries : List (Value × Value) → List String
  | [] => []
  | (k, v) :: rest => (k.render ++ ": " ++ v.render) :: renderEntries rest
end

/-- The long form of an integer, which tells the two signs apart. -/
def Integer.inspect (n : Integer) : String :=
  if 0 ≤ n.val then "Integer(PosInt(" ++ toString n.val ++ "))"
  else "Integer(NegInt(" ++ toString n.val ++ "))"

/-- The long form of a string whose bytes are not well formed, with the place of the fault. -/
def inspectBadString (bytes : Bytes) : String :=
  let fault := (utf8Fault? bytes).getD ⟨bytes.length, none⟩
  let length := match fault.faultLength with
    | some n => "Some(" ++ toString n ++ ")"
    | none => "None"
  "String(Utf8String \x7b s: Err((" ++ renderBytes bytes
    ++ ", Utf8Error \x7b valid_up_to: " ++ toString fault.validUpTo
    ++ ", error_len: " ++ length ++ " \x7d)) \x7d)"

mutual
/-- The long form of a value. -/
def Value.inspect : Value → String
  | .nil => "Nil"
  | .bool b => if b then "Boolean(true)" else "Boolean(false)"
  | .int n => n.inspect
  | .f32 bits => "F32(" ++ writeFloat inspectedFloat binary32 bits.toNat ++ ")"
  | .f64 bits => "F64(" ++ writeFloat inspectedFloat binary64 bits.toNat ++ ")"
  | .str s => "String(Utf8String \x7b s: Ok(" ++ quoted s ++ ") \x7d)"
  | .badStr bytes => inspectBadString bytes
  | .bin bytes => "Binary(" ++ renderBytes bytes ++ ")"
  | .array items => "Array(" ++ bracketed "[" "]" (inspectAll items) ++ ")"
  | .map entries => "Map(" ++ bracketed "[" "]" (inspectEntries entries) ++ ")"
  | .ext type data => "Ext(" ++ toString type.toInt ++ ", " ++ renderBytes data ++ ")"

/-- The long forms of the members of an array. -/
def inspectAll : List Value → List String
  | [] => []
  | v :: rest => v.inspect :: inspectAll rest

/-- The entries of a map as pairs. -/
def inspectEntries : List (Value × Value) → List String
  | [] => []
  | (k, v) :: rest => ("(" ++ k.inspect ++ ", " ++ v.inspect ++ ")") :: inspectEntries rest
end

/-- The long form of a list of values. -/
def inspectList (values : List Value) : String :=
  bracketed "[" "]" (inspectAll values)

/-- The long form of a value that may be missing. -/
def inspectOption : Option Value → String
  | none => "None"
  | some v => "Some(" ++ v.inspect ++ ")"

end BoardLink.MessagePack
