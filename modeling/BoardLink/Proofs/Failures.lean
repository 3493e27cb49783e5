/-!
# Steps that can fail

What is known of a step that can fail: when a sequence of steps succeeds, and with what it can fail
if it does (`FailsOnly`).
-/

namespace BoardLink

variable {ε α β : Type}

theorem bind_eq_ok_iff {x : Except ε α} {f : α → Except ε β} {b : β} :
    (x >>= f) = .ok b ↔ ∃ a, x = .ok a ∧ f a = .ok b := by
  cases x with
  | error e => simp [bind, Except.bind]
  | ok a => simp [bind, Except.bind]

theorem map_eq_ok_iff {x : Except ε α} {f : α → β} {b : β} :
    f <$> x = .ok b ↔ ∃ a, x = .ok a ∧ f a = b := by
  cases x with
  | error e => simp [Functor.map, Except.map]
  | ok a => simp [Functor.map, Except.map]

/-- **If the step fails, then with an error of this kind.** -/
def FailsOnly (kind : ε → Prop) (x : Except ε α) : Prop := ∀ e, x = .error e → kind e

namespace FailsOnly

variable {kind : ε → Prop}

theorem ok (a : α) : FailsOnly kind (.ok a) := fun _ h => by cases h

theorem error {e : ε} (he : kind e) : FailsOnly kind (.error e : Except ε α) := by
  intro e' h
  obtain rfl := Except.error.inj h
  exact he

theorem bind {x : Except ε α} {f : α → Except ε β} (hx : FailsOnly kind x)
    (hf : ∀ a, FailsOnly kind (f a)) : FailsOnly kind (x >>= f) := by
  cases x with
  | error e => exact .error (hx e rfl)
  | ok a => exact hf a

theorem map {x : Except ε α} (f : α → β) (hx : FailsOnly kind x) : FailsOnly kind (f <$> x) := by
  -- a map is a step that cannot fail behind one that can
  rw [map_eq_pure_bind]
  exact hx.bind fun a => ok (f a)

end FailsOnly

end BoardLink
