import BoardLink.Proofs.Registry.Serials

/-!
# One device of a registry

What an operation of a registry does to the device with a given serial. Each of them is about the
device that it names and leaves the others as they are, so what becomes of a device depends on the
operations on its own serial.

* `Registry.get?_add`, `Registry.get?_remove`, `Registry.get?_change` — one operation;
* `Registry.get?_addAll`, `Registry.get?_removeAll` — a list of them.
-/

namespace BoardLink

namespace Registry

variable {κ : Type}

theorem get?_eq_none_of_absent {r : Registry κ} {x : String} (h : ¬ r.contains x) :
    r.get? x = none := by
  rw [get?, List.find?_eq_none]
  intro d hd
  simp only [decide_eq_true_eq]
  rintro rfl
  exact h (contains_iff.2 ⟨d, hd, rfl⟩)

theorem serial_of_get? {r : Registry κ} {x : String} {d : Device κ} (h : r.get? x = some d) :
    d.serial = x := by
  simpa using List.find?_some h

theorem exists_get?_of_contains {r : Registry κ} {x : String} (h : r.contains x) :
    ∃ d, r.get? x = some d := by
  obtain ⟨d, hd, hserial⟩ := contains_iff.1 h
  rw [← Option.isSome_iff_exists, get?, List.find?_isSome]
  exact ⟨d, hd, by simpa using hserial⟩

theorem get?_remove (r : Registry κ) (y x : String) :
    (r.remove y).2.get? x = if y = x then none else r.get? x := by
  unfold remove
  -- if it was there all devices of this serial are filtered out
  split
  · show (r.devices.filter _).find? _ = _
    rw [List.find?_filter]
    split
    next hsame =>
      -- no device is left with this serial
      subst hsame
      simp
    next hother =>
      -- the filter passes every device that can be found here
      rw [get?]
      congr 1
      funext d
      by_cases hx : d.serial = x
      · simp [hx, Ne.symm hother]
      · simp [hx]
  next habsent =>
    -- nothing is removed, so a device with this serial was not there either
    split
    next hsame => exact get?_eq_none_of_absent (hsame ▸ habsent)
    · rfl

theorem get?_removeAll (r : Registry κ) (gone : List String) (x : String) :
    (r.removeAll gone).get? x = if x ∈ gone then none else r.get? x := by
  induction gone generalizing r with
  | nil => rfl
  | cons y gone ih =>
    have hcons : r.removeAll (y :: gone) = (r.remove y).2.removeAll gone := rfl
    rw [hcons, ih, get?_remove]
    by_cases hlater : x ∈ gone
    · -- it is gone already, or is removed later
      rw [if_pos hlater, if_pos (List.mem_cons_of_mem y hlater)]
    · simp only [hlater, List.mem_cons, or_false, if_false, eq_comm (a := x)]

/-- A device that is changed, under its serial, is found as it was changed. -/
theorem get?_modifyDevice (r : Registry κ) (y : String) {f : Device κ → Device κ}
    (hserial : ∀ d, (f d).serial = d.serial) (x : String) :
    (r.modifyDevice y f).get? x = if y = x then (r.get? x).map f else r.get? x := by
  show (r.devices.map fun d => if d.serial = y then f d else d).find? _ = _
  -- no serial changes, so the same device is found
  have hsame : ((fun d : Device κ => decide (d.serial = x)) ∘
      fun d => if d.serial = y then f d else d) = fun d => decide (d.serial = x) := by
    funext d
    rw [Function.comp_apply]
    split
    · rw [hserial]
    · rfl
  rw [List.find?_map, hsame, ← get?]
  cases hd : r.get? x with
  | none => exact (ite_self none).symm
  | some d =>
    -- the device that is found has this serial
    have hfound := serial_of_get? hd
    subst hfound
    simp only [Option.map_some, eq_comm (a := y)]
    split <;> rfl

variable [Capability κ]

@[simp] theorem table_add (r : Registry κ) (y : String) : (r.add y).2.table = r.table := by
  unfold add
  split <;> rfl

theorem get?_add (r : Registry κ) (y x : String) : (r.add y).2.get? x =
    if y = x then some ((r.get? x).getD ⟨x, r.table.instantiate? x⟩) else r.get? x := by
  unfold add
  split
  next hpresent =>
    split
    next hsame =>
      obtain ⟨d, hd⟩ := exists_get?_of_contains (hsame ▸ hpresent)
      rw [hd]
      rfl
    · rfl
  next habsent =>
    -- a new device stands behind the others, so it is found if there was none
    show (r.devices ++ [_]).find? _ = _
    rw [List.find?_append, ← get?]
    split
    next hsame =>
      subst hsame
      rw [get?_eq_none_of_absent habsent]
      simp
    next hother => simp [hother]

theorem get?_addAll (r : Registry κ) (serials : List String) (x : String) :
    (r.addAll serials).get? x =
      if x ∈ serials then some ((r.get? x).getD ⟨x, r.table.instantiate? x⟩) else r.get? x := by
  induction serials generalizing r with
  | nil => rfl
  | cons y serials ih =>
    have hcons : r.addAll (y :: serials) = (r.add y).2.addAll serials := rfl
    rw [hcons, ih, get?_add, table_add]
    by_cases hsame : y = x
    · -- the device is there from now on
      subst hsame
      simp
    · have hother : x ≠ y := fun h => hsame h.symm
      simp only [hsame, hother, List.mem_cons, false_or, if_false]

theorem get?_change (r : Registry κ) (y : String) (addr port : UInt8) (w : UInt16) (x : String) :
    (r.change y addr port w).2.get? x =
      if y = x then (r.get? x).map (·.registerChanged addr port w) else r.get? x := by
  unfold change
  split
  · exact get?_modifyDevice r y (f := (·.registerChanged addr port w)) (fun _ => rfl) x
  next habsent =>
    split
    next hsame =>
      rw [get?_eq_none_of_absent (r := r) (hsame ▸ habsent)]
      exact get?_eq_none_of_absent (hsame ▸ habsent)
    · rfl

end Registry

end BoardLink
