import BoardLink.MessagePack.Value

/-!
# What values stand for

A field of a message is read through a view, and a view takes the value in more than one form. Which
forms these are is said here without reading anything: a text is a string or the bytes of the text, a
number is an integer that is not negative, and a block is bytes or a string of these bytes, be they
well formed or not. Each view finds what the value stands for, and a value stands for one thing at
most, so a view that finds nothing is right about it (`asText?_eq_none_iff` and its like).
-/

namespace BoardLink.MessagePack

namespace Value

/-- The value is a text, sent as a string or as the bytes of the text. -/
def IsText (v : Value) (s : String) : Prop := v = .str s ∨ v = .bin (utf8 s)

/-- The value is an integer that is a natural number. -/
def IsNat (v : Value) (n : Nat) : Prop := ∃ i : Integer, v = .int i ∧ i.val = n

/-- The value is a block of bytes, sent as such or as a string with these bytes. -/
def IsBlock (v : Value) (bytes : Bytes) : Prop :=
  v = .bin bytes ∨ (∃ s, v = .str s ∧ utf8 s = bytes) ∨ v = .badStr bytes

variable {v : Value} {s : String} {n : Nat} {bytes : Bytes}

theorem asText?_eq_some_iff : v.asText? = some s ↔ v.IsText s := by
  cases v with
  | str s' => simp [asText?, IsText]
  | bin bytes => simp [asText?, IsText, text?_eq_some_iff]
  | _ => simp [asText?, IsText]

theorem asNat?_eq_some_iff : v.asNat? = some n ↔ v.IsNat n := by
  cases v with
  | int i =>
    -- the view asks whether the integer is negative, `IsNat` whether it is equal to a natural
    -- number
    simp only [asNat?, Integer.toNat?, IsNat, Value.int.injEq, exists_eq_left',
      Option.ite_none_right_eq_some, Option.some.injEq]
    omega
  | _ => simp [asNat?, IsNat]

theorem asBytes?_eq_some_iff : v.asBytes? = some bytes ↔ v.IsBlock bytes := by
  cases v <;> simp [asBytes?, IsBlock]

theorem asText?_eq_none_iff : v.asText? = none ↔ ∀ s, ¬ v.IsText s := by
  simp only [Option.eq_none_iff_forall_ne_some, ne_eq, asText?_eq_some_iff]

theorem asNat?_eq_none_iff : v.asNat? = none ↔ ∀ n, ¬ v.IsNat n := by
  simp only [Option.eq_none_iff_forall_ne_some, ne_eq, asNat?_eq_some_iff]

theorem asBytes?_eq_none_iff : v.asBytes? = none ↔ ∀ bytes, ¬ v.IsBlock bytes := by
  simp only [Option.eq_none_iff_forall_ne_some, ne_eq, asBytes?_eq_some_iff]

theorem IsText.unique {s' : String} (h : v.IsText s) (h' : v.IsText s') : s = s' :=
  Option.some.inj ((asText?_eq_some_iff.2 h).symm.trans (asText?_eq_some_iff.2 h'))

theorem IsNat.unique {n' : Nat} (h : v.IsNat n) (h' : v.IsNat n') : n = n' :=
  Option.some.inj ((asNat?_eq_some_iff.2 h).symm.trans (asNat?_eq_some_iff.2 h'))

theorem IsBlock.unique {bytes' : Bytes} (h : v.IsBlock bytes) (h' : v.IsBlock bytes') :
    bytes = bytes' :=
  Option.some.inj ((asBytes?_eq_some_iff.2 h).symm.trans (asBytes?_eq_some_iff.2 h'))

end Value

end BoardLink.MessagePack
