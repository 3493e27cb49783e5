import BoardLink.Bytes

/-!
# UTF-8 text as bytes

`utf8 s` are the bytes of a text and `text? b` is the text that bytes spell, if they are well
formed. `utf8Fault? b` tells where a malformed byte string goes wrong: how many bytes in front of it
are fine, and how many bytes the first ill-formed sequence takes, or that the string ends inside a
character.

* `text?_eq_some_iff` — a text is read from exactly its own bytes.
-/

namespace BoardLink

/-- The bytes of a text. -/
def utf8 (s : String) : Bytes :=
  s.toUTF8.data.toList

/-- The text that `bytes` spell, `none` if they are not well formed. -/
def text? (bytes : Bytes) : Option String :=
  String.fromUTF8? ⟨bytes.toArray⟩

/-- A text is read from exactly its own bytes. -/
theorem text?_eq_some_iff {bytes : Bytes} {s : String} : text? bytes = some s ↔ bytes = utf8 s := by
  simp only [text?, String.fromUTF8?, utf8]
  constructor
  · intro h
    split at h
    · simp only [Option.some.injEq] at h
      subst h
      rfl
    · simp at h
  · rintro rfl
    have h : (⟨s.toUTF8.data.toList.toArray⟩ : ByteArray) = s.toByteArray := rfl
    rw [h, dif_pos s.isValidUTF8]
    rfl

@[simp] theorem text?_utf8 (s : String) : text? (utf8 s) = some s :=
  text?_eq_some_iff.2 rfl

/-- Where a byte string stops being well formed. -/
structure Utf8Fault where
  /-- The number of bytes in front that are well formed. -/
  validUpTo : Nat
  /-- The length of the ill-formed sequence, `none` if the string ends inside a character. -/
  faultLength : Option Nat
  deriving DecidableEq, Repr

/-- What a leading byte announces: the number of bytes that follow it, and the range of the first of
them. The range keeps out overlong forms, surrogates and numbers above the last code point. -/
def leadByte? (b : UInt8) : Option (Nat × UInt8 × UInt8) :=
  if b < 0x80 then some (0, 0x80, 0xbf)
  else if b < 0xc2 then none
  else if b < 0xe0 then some (1, 0x80, 0xbf)
  else if b = 0xe0 then some (2, 0xa0, 0xbf)
  else if b = 0xed then some (2, 0x80, 0x9f)
  else if b < 0xf0 then some (2, 0x80, 0xbf)
  else if b = 0xf0 then some (3, 0x90, 0xbf)
  else if b < 0xf4 then some (3, 0x80, 0xbf)
  else if b = 0xf4 then some (3, 0x80, 0x8f)
  else none

/-- The state of a check: the current character begins at `start`, `seen` of its bytes have been
passed, `due` are still to come, and the next one lies between `low` and `high`. -/
structure Utf8Check where
  start : Nat := 0
  seen : Nat := 0
  due : Nat := 0
  low : UInt8 := 0x80
  high : UInt8 := 0xbf

/-- Checks `bytes` from a given state on. -/
def Utf8Check.run (c : Utf8Check) : Bytes → Option Utf8Fault
  | [] => if c.due = 0 then none else some ⟨c.start, none⟩
  | b :: rest =>
    if c.due = 0 then
      match leadByte? b with
      | none => some ⟨c.start, some 1⟩
      | some (0, _, _) => run { start := c.start + 1 } rest
      | some (due, low, high) => run ⟨c.start, 1, due, low, high⟩ rest
    else if c.low ≤ b && b ≤ c.high then
      if c.due = 1 then run { start := c.start + c.seen + 1 } rest
      else run { c with seen := c.seen + 1, due := c.due - 1, low := 0x80, high := 0xbf } rest
    else some ⟨c.start, some c.seen⟩

/-- The first fault of a byte string, `none` if it is well formed. -/
def utf8Fault? (bytes : Bytes) : Option Utf8Fault :=
  Utf8Check.run {} bytes

end BoardLink
