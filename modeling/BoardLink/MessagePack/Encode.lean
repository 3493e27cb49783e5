import BoardLink.MessagePack.Value

/-!
# Encoding of values

Every value has one encoding, with the shortest header that can hold it: small integers are their
own marker, lengths go into the marker where they fit and else into the narrowest length field.
Integers that are not negative always use the unsigned formats. A string that is not well-formed
text is written as a byte block.
-/

namespace BoardLink.MessagePack

/-- The encoding of an integer, in the narrowest format. -/
def Integer.encode (n : Integer) : Bytes :=
  if 0 ≤ n.val then
    let m := n.val.toNat
    if m < 0x80 then [UInt8.ofNat m]
    else if m < 0x100 then 0xcc :: bigEndian 1 m
    else if m < 0x10000 then 0xcd :: bigEndian 2 m
    else if m < 0x100000000 then 0xce :: bigEndian 4 m
    else 0xcf :: bigEndian 8 m
  else
    -- two's complement in the width of the format
    let field (width : Nat) : Bytes := bigEndian width (n.val + fieldValues width).toNat
    if -32 ≤ n.val then field 1
    else if -0x80 ≤ n.val then 0xd0 :: field 1
    else if -0x8000 ≤ n.val then 0xd1 :: field 2
    else if -0x80000000 ≤ n.val then 0xd2 :: field 4
    else 0xd3 :: field 8

/-- The header of a string of `n` bytes. -/
def stringHeader (n : Nat) : Bytes :=
  if n < 32 then [0xa0 ||| UInt8.ofNat n]
  else if n < 0x100 then 0xd9 :: bigEndian 1 n
  else if n < 0x10000 then 0xda :: bigEndian 2 n
  else 0xdb :: bigEndian 4 n

/-- The header of a byte block of `n` bytes. -/
def binaryHeader (n : Nat) : Bytes :=
  if n < 0x100 then 0xc4 :: bigEndian 1 n
  else if n < 0x10000 then 0xc5 :: bigEndian 2 n
  else 0xc6 :: bigEndian 4 n

/-- The header of an array of `n` members. -/
def arrayHeader (n : Nat) : Bytes :=
  if n < 16 then [0x90 ||| UInt8.ofNat n]
  else if n < 0x10000 then 0xdc :: bigEndian 2 n
  else 0xdd :: bigEndian 4 n

/-- The header of a map of `n` entries. -/
def mapHeader (n : Nat) : Bytes :=
  if n < 16 then [0x80 ||| UInt8.ofNat n]
  else if n < 0x10000 then 0xde :: bigEndian 2 n
  else 0xdf :: bigEndian 4 n

/-- The header of an extension of `n` bytes, up to its type. -/
def extHeader (n : Nat) : Bytes :=
  if n = 1 then [0xd4]
  else if n = 2 then [0xd5]
  else if n = 4 then [0xd6]
  else if n = 8 then [0xd7]
  else if n = 16 then [0xd8]
  else if n < 0x100 then 0xc7 :: bigEndian 1 n
  else if n < 0x10000 then 0xc8 :: bigEndian 2 n
  else 0xc9 :: bigEndian 4 n

mutual
/-- The encoding of a value. -/
def Value.encode : Value → Bytes
  | .nil => [0xc0]
  | .bool b => if b then [0xc3] else [0xc2]
  | .int n => n.encode
  | .f32 bits => 0xca :: bigEndian 4 bits.toNat
  | .f64 bits => 0xcb :: bigEndian 8 bits.toNat
  | .str s => stringHeader (utf8 s).length ++ utf8 s
  | .badStr bytes => binaryHeader bytes.length ++ bytes
  | .bin bytes => binaryHeader bytes.length ++ bytes
  | .array items => arrayHeader items.length ++ encodeAll items
  | .map entries => mapHeader entries.length ++ encodeEntries entries
  | .ext type data => extHeader data.length ++ type.toUInt8 :: data

/-- The encodings of values one after the other. -/
def encodeAll : List Value → Bytes
  | [] => []
  | v :: rest => v.encode ++ encodeAll rest

/-- The encodings of map entries one after the other, each key before its value. -/
def encodeEntries : List (Value × Value) → Bytes
  | [] => []
  | (k, v) :: rest => k.encode ++ v.encode ++ encodeEntries rest
end

end BoardLink.MessagePack
