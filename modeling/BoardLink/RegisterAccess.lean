import BoardLink.Session.Error

/-!
# Register access

The generic operations that every device supports. What a kind of board can do is written in terms
of them alone, so it runs on a device of a session as well as on anything else that can reach
registers.
-/

namespace BoardLink

/-- A fallible operation on something with state `σ` that holds registers. -/
abbrev Access (σ : Type) := ExceptT SessionError (StateM σ)

namespace Access

variable {σ α β : Type}

/-- An operation goes on with what its first part gave, and ends with it if that is an error. -/
theorem bind_apply (x : Access σ α) (f : α → Access σ β) (s : σ) :
    (x >>= f) s = match x s with
      | (.ok a, s') => f a s'
      | (.error e, s') => (.error e, s') := by
  show ExceptT.bindCont f (x s).1 (x s).2 = _
  rcases x s with ⟨e | a, s'⟩ <;> rfl

theorem map_apply (f : α → β) (x : Access σ α) (s : σ) :
    (f <$> x) s = ((x s).1.map f, (x s).2) := by
  rw [← bind_pure_comp, bind_apply]
  rcases x s with ⟨e | a, s'⟩ <;> rfl

/-- **A success is one of all parts.** -/
theorem bind_ok {x : Access σ α} {f : α → Access σ β} {s s'' : σ} {b : β}
    (h : (x >>= f) s = (.ok b, s'')) : ∃ a s', x s = (.ok a, s') ∧ f a s' = (.ok b, s'') := by
  rw [bind_apply] at h
  split at h
  next a s' hx => exact ⟨a, s', hx, h⟩
  · cases h

end Access

/-- Something whose registers can be read and written. -/
class RegisterAccess (σ : Type) where
  readReg : (addr port : UInt8) → Access σ UInt16
  writeReg : (addr port : UInt8) → (value : UInt16) → Access σ Unit
  /-- Reads `count` words from one register. -/
  readRegN : (addr port : UInt8) → (count : Nat) → Access σ (List UInt16)
  /-- Writes all words to one register. -/
  writeRegN : (addr port : UInt8) → (values : List UInt16) → Access σ Unit

export RegisterAccess (readReg writeReg readRegN writeRegN)

end BoardLink
