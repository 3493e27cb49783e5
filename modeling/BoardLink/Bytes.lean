/-!
# Byte strings and big-endian numbers

Everything on the wire is a byte string. `bigEndian` writes a number into a field of fixed width and
`ofBigEndian` reads it back; `wordsToBytes` and `bytesToWords` do the same for blocks of 16 bit
words, which is how register blocks travel.

* `ofBigEndian_bigEndian` — a number that fits its field is read back unchanged;
* `length_bigEndian` — a field has exactly its width.
-/

namespace BoardLink

/-- A byte string. -/
abbrev Bytes := List UInt8

/-- The number of values that a field of `width` bytes can hold. -/
def fieldValues : (width : Nat) → Nat
  | 0 => 1
  | width + 1 => 256 * fieldValues width

/-- The `width` low bytes of `n`, the most significant one first. -/
def bigEndian : (width : Nat) → (n : Nat) → Bytes
  | 0, _ => []
  | width + 1, n => bigEndian width (n / 256) ++ [UInt8.ofNat n]

/-- The number a byte string stands for, the most significant byte first. -/
def ofBigEndian (bytes : Bytes) : Nat :=
  bytes.foldl (fun n b => n * 256 + b.toNat) 0

@[simp] theorem length_bigEndian (width n : Nat) : (bigEndian width n).length = width := by
  induction width generalizing n with
  | zero => rfl
  | succ width ih => simp [bigEndian, ih]

@[simp] theorem ofBigEndian_append_byte (bytes : Bytes) (b : UInt8) :
    ofBigEndian (bytes ++ [b]) = ofBigEndian bytes * 256 + b.toNat := by
  simp [ofBigEndian]

/-- Reading a field back gives the number modulo the field's range. -/
theorem ofBigEndian_bigEndian_mod (width n : Nat) :
    ofBigEndian (bigEndian width n) = n % fieldValues width := by
  induction width generalizing n with
  | zero => simp [bigEndian, ofBigEndian, fieldValues, Nat.mod_one]
  | succ width ih =>
    have byte : (UInt8.ofNat n).toNat = n % 256 := by simp
    rw [bigEndian, ofBigEndian_append_byte, ih, byte, fieldValues, Nat.mod_mul]
    omega

/-- A number that fits its field is read back unchanged. -/
theorem ofBigEndian_bigEndian {width n : Nat} (h : n < fieldValues width) :
    ofBigEndian (bigEndian width n) = n := by
  rw [ofBigEndian_bigEndian_mod, Nat.mod_eq_of_lt h]

/-- The two bytes of a word, high byte first. -/
def wordBytes (w : UInt16) : Bytes :=
  [(w >>> 8).toUInt8, w.toUInt8]

/-- A block of words as bytes, two per word. -/
def wordsToBytes (words : List UInt16) : Bytes :=
  words.flatMap wordBytes

/-- The words of a block; a byte left over at the end is not part of any word. -/
def bytesToWords : Bytes → List UInt16
  | high :: low :: rest => (high.toUInt16 <<< 8 ||| low.toUInt16) :: bytesToWords rest
  | _ => []

@[simp] theorem length_wordsToBytes (words : List UInt16) :
    (wordsToBytes words).length = 2 * words.length := by
  induction words with
  | nil => rfl
  | cons w ws ih =>
    simp only [wordsToBytes, List.flatMap_cons, List.length_append, List.length_cons] at ih ⊢
    simp only [ih, wordBytes, List.length_cons, List.length_nil]
    omega

end BoardLink
