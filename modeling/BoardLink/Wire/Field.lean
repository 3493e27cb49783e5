import BoardLink.Wire.Fault

/-!
# Fields of a message

Requests and packets are arrays whose fields have fixed places. A field is asked for by its place
and its name; the name only serves the fault that tells what is wrong with it.
-/

namespace BoardLink.Wire

open BoardLink.MessagePack

/-- The field at a place. -/
def field (fields : List Value) (place : Nat) (name : String) : Except Fault Value :=
  match fields[place]? with
  | some v => .ok v
  | none => .error (.invalidFormat (.missing name))

/-- The text at a place, sent as a string or as a byte block. -/
def textField (fields : List Value) (place : Nat) (name : String) : Except Fault String := do
  let v ← field fields place name
  match v.asText? with
  | some s => return s
  | none => throw (.invalidFormat (.notText name v))

/-- The non-negative integer below `bound` at a place. -/
def boundedField (bound : Nat) (fields : List Value) (place : Nat) (name : String) :
    Except Fault Nat := do
  let v ← field fields place name
  match v.asNat? with
  | some n => if n < bound then return n else throw (.invalidFormat (.outOfRange name v))
  | none => throw (.invalidFormat (.outOfRange name v))

/-- The byte at a place. -/
def uint8Field (fields : List Value) (place : Nat) (name : String) : Except Fault UInt8 :=
  UInt8.ofNat <$> boundedField 0x100 fields place name

/-- The 16 bit word at a place. -/
def uint16Field (fields : List Value) (place : Nat) (name : String) : Except Fault UInt16 :=
  UInt16.ofNat <$> boundedField 0x10000 fields place name

/-- The 32 bit word at a place. -/
def uint32Field (fields : List Value) (place : Nat) (name : String) : Except Fault UInt32 :=
  UInt32.ofNat <$> boundedField 0x100000000 fields place name

/-- The byte block at a place, sent as such or as a string. -/
def bytesField (fields : List Value) (place : Nat) (name : String) : Except Fault Bytes := do
  let v ← field fields place name
  match v.asBytes? with
  | some b => return b
  | none => throw (.invalidFormat (.notBytes name v))

end BoardLink.Wire
