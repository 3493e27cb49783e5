import BoardLink.MessagePack.Value

/-!
# Reading a value

`readValue` reads the value at the front of a byte string and hands back the bytes behind it. It
descends into containers under a budget of `readBudget`: every value costs one, the members of an
array or map one more, a byte block one more, a string or an extension two more. The budget is what
the recursion runs on, so reading terminates on every input.
-/

namespace BoardLink.MessagePack

/-- Why bytes are not a value. -/
inductive Malformed where
  /-- The marker that begins no value. -/
  | reservedMarker
  /-- Nested deeper than the budget allows. -/
  | tooDeep
  /-- The bytes end inside the value. -/
  | truncated
  deriving DecidableEq, Repr

/-- A step that takes bytes from the front of a byte string. -/
abbrev Reader := StateT Bytes (Except Malformed)

/-- The depth budget of a message. -/
def readBudget : Nat := 1024

/-- Takes one byte. -/
def readByte : Reader UInt8 := fun bytes =>
  match bytes with
  | [] => .error .truncated
  | b :: rest => .ok (b, rest)

/-- Takes `n` bytes. -/
def readBytes (n : Nat) : Reader Bytes := fun bytes =>
  let taken := bytes.take n
  if taken.length = n then .ok (taken, bytes.drop n) else .error .truncated

/-- Takes an unsigned number of `width` bytes. -/
def readUnsigned (width : Nat) : Reader Nat :=
  ofBigEndian <$> readBytes width

/-- Takes a number of `width` bytes in two's complement. -/
def readSigned (width : Nat) : Reader Int := do
  let n ← readUnsigned width
  return if 2 * n < fieldValues width then n else n - fieldValues width

/-- Where a format keeps a length: in the marker, or in a field behind it. -/
inductive Extent where
  | immediate (n : Nat)
  | stored (width : Nat)
  deriving DecidableEq, Repr

/-- Takes a length. -/
def Extent.read : Extent → Reader Nat
  | .immediate n => pure n
  | .stored width => readUnsigned width

/-- The formats of the value that a marker begins. -/
inductive Format where
  | nil
  | bool (b : Bool)
  /-- An integer that is its own marker. -/
  | small (n : Int8)
  | unsigned (width : Nat)
  | signed (width : Nat)
  | float32
  | float64
  | string (e : Extent)
  | binary (e : Extent)
  | array (e : Extent)
  | map (e : Extent)
  | ext (e : Extent)
  | reserved
  deriving DecidableEq, Repr

/-- The format of each marker. -/
def Format.ofMarker (marker : UInt8) : Format :=
  match marker with
  | 0xc0 => .nil
  | 0xc1 => .reserved
  | 0xc2 => .bool false
  | 0xc3 => .bool true
  | 0xc4 => .binary (.stored 1)
  | 0xc5 => .binary (.stored 2)
  | 0xc6 => .binary (.stored 4)
  | 0xc7 => .ext (.stored 1)
  | 0xc8 => .ext (.stored 2)
  | 0xc9 => .ext (.stored 4)
  | 0xca => .float32
  | 0xcb => .float64
  | 0xcc => .unsigned 1
  | 0xcd => .unsigned 2
  | 0xce => .unsigned 4
  | 0xcf => .unsigned 8
  | 0xd0 => .signed 1
  | 0xd1 => .signed 2
  | 0xd2 => .signed 4
  | 0xd3 => .signed 8
  | 0xd4 => .ext (.immediate 1)
  | 0xd5 => .ext (.immediate 2)
  | 0xd6 => .ext (.immediate 4)
  | 0xd7 => .ext (.immediate 8)
  | 0xd8 => .ext (.immediate 16)
  | 0xd9 => .string (.stored 1)
  | 0xda => .string (.stored 2)
  | 0xdb => .string (.stored 4)
  | 0xdc => .array (.stored 2)
  | 0xdd => .array (.stored 4)
  | 0xde => .map (.stored 2)
  | 0xdf => .map (.stored 4)
  | b =>
    if b < 0x80 || 0xe0 ≤ b then .small b.toInt8
    else if b < 0x90 then .map (.immediate (b.toNat - 0x80))
    else if b < 0xa0 then .array (.immediate (b.toNat - 0x90))
    else .string (.immediate (b.toNat - 0xa0))

/-- Refuses what costs more than is left of the budget. -/
def afford (cost budget : Nat) : Reader Unit :=
  if cost ≤ budget then pure () else throw .tooDeep

/-- Takes `n` things one after the other. -/
def readMany {α : Type} (one : Reader α) : (n : Nat) → Reader (List α)
  | 0 => pure []
  | n + 1 => do
    let first ← one
    let others ← readMany one n
    return first :: others

/-- Takes the value at the front of a byte string. -/
def readValue : (budget : Nat) → Reader Value
  | 0 => throw .tooDeep
  | budget + 1 => do
    match Format.ofMarker (← readByte) with
    | .reserved => throw .reservedMarker
    | .nil => return .nil
    | .bool b => return .bool b
    | .small n => return .int (.ofInt64 n.toInt64)
    | .unsigned width => return .int (.ofUInt64 (UInt64.ofNat (← readUnsigned width)))
    | .signed width => return .int (.ofInt64 (Int64.ofInt (← readSigned width)))
    | .float32 => return .f32 (UInt32.ofNat (← readUnsigned 4))
    | .float64 => return .f64 (UInt64.ofNat (← readUnsigned 8))
    | .string e =>
      let n ← e.read
      afford 2 budget
      return .ofStringBytes (← readBytes n)
    | .binary e =>
      let n ← e.read
      afford 1 budget
      return .bin (← readBytes n)
    | .ext e =>
      let n ← e.read
      afford 2 budget
      let type ← readByte
      return .ext type.toInt8 (← readBytes n)
    | .array e =>
      let n ← e.read
      match budget with
      | 0 => throw .tooDeep
      | inner + 1 => return .array (← readMany (readValue inner) n)
    | .map e =>
      let n ← e.read
      match budget with
      | 0 => throw .tooDeep
      | inner + 1 => return .map (← readMany (do return (← readValue inner, ← readValue inner)) n)

/-- Nothing is read from nothing. -/
theorem readValue_nil (budget : Nat) : ∃ e, readValue budget [] = .error e := by
  cases budget with
  | zero => exact ⟨.tooDeep, rfl⟩
  | succ budget => exact ⟨.truncated, by rw [readValue]; rfl⟩

end BoardLink.MessagePack
