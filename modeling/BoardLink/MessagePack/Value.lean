import BoardLink.Text.Utf8

/-!
# MessagePack values

`Value` is the data model of the wire: nil, booleans, integers from `-2 ^ 63` to `2 ^ 64 - 1`, two
float widths kept as bit patterns, strings, byte blocks, arrays, maps (ordered, with repeated keys
allowed) and tagged extensions. A string marker may carry bytes that are not UTF-8; such a value is
a `badStr`.

Servers differ in whether they send text as strings or as byte blocks, so fields are read through
the views `asText?` and `asBytes?`, which accept both.
-/

namespace BoardLink.MessagePack

/-- An integer that MessagePack can carry. -/
structure Integer where
  val : Int
  neg_le : -0x8000000000000000 ≤ val
  lt_top : val < 0x10000000000000000
  deriving DecidableEq

namespace Integer

@[ext] theorem ext_val {a b : Integer} (h : a.val = b.val) : a = b := by
  cases a; cases b; simp_all

/-- The integer of an unsigned word. -/
def ofUInt64 (n : UInt64) : Integer where
  val := n.toNat
  neg_le := by omega
  lt_top := by have := n.toNat_lt; omega

/-- The integer of a signed word. -/
def ofInt64 (n : Int64) : Integer where
  val := n.toInt
  neg_le := by have := n.le_toInt; omega
  lt_top := by have := n.toInt_lt; omega

/-- The integer as a natural number below `2 ^ 64`, if it is one. -/
def toNat? (n : Integer) : Option Nat :=
  if 0 ≤ n.val then some n.val.toNat else none

/-- The integer as a signed word, if it fits. -/
def toInt64? (n : Integer) : Option Int64 :=
  if n.val < 0x8000000000000000 then some (Int64.ofInt n.val) else none

@[simp] theorem toInt64?_ofInt64 (n : Int64) : (ofInt64 n).toInt64? = some n := by
  have h : (ofInt64 n).val < 0x8000000000000000 := by
    have := n.toInt_lt
    simp only [ofInt64]
    omega
  rw [toInt64?, if_pos h]
  exact congrArg some (Int64.ofInt_toInt n)

end Integer

/-- A MessagePack value. -/
inductive Value where
  | nil
  | bool (b : Bool)
  | int (n : Integer)
  /-- A 32 bit float by its bits. -/
  | f32 (bits : UInt32)
  /-- A 64 bit float by its bits. -/
  | f64 (bits : UInt64)
  | str (s : String)
  /-- A string whose bytes are not well formed. -/
  | badStr (bytes : Bytes)
  | bin (bytes : Bytes)
  | array (items : List Value)
  /-- Entries in order; a key may occur more than once. -/
  | map (entries : List (Value × Value))
  | ext (type : Int8) (data : Bytes)

namespace Value

/-- The integer value of an unsigned word. -/
def ofNat64 (n : UInt64) : Value := .int (.ofUInt64 n)

/-- What a string marker followed by `bytes` stands for. -/
def ofStringBytes (bytes : Bytes) : Value :=
  match text? bytes with
  | some s => .str s
  | none => .badStr bytes

/-- The value as text: a string, or a byte block that is well-formed text. -/
def asText? : Value → Option String
  | .str s => some s
  | .bin bytes => text? bytes
  | _ => none

/-- The value as a byte block, sent as such or as a string. -/
def asBytes? : Value → Option Bytes
  | .bin bytes => some bytes
  | .str s => some (utf8 s)
  | .badStr bytes => some bytes
  | _ => none

/-- The value as a natural number, if it is a non-negative integer. -/
def asNat? : Value → Option Nat
  | .int n => n.toNat?
  | _ => none

/-- The value as a signed word, if it is an integer that fits. -/
def asInt64? : Value → Option Int64
  | .int n => n.toInt64?
  | _ => none

/-- Whether the value reports success: a boolean, or an integer other than zero. -/
def asFlag? : Value → Option Bool
  | .bool b => some b
  | .int n => some (n.val != 0)
  | _ => none

end Value

end BoardLink.MessagePack
