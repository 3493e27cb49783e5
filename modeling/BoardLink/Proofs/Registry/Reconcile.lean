import BoardLink.Capability.Known
import BoardLink.Proofs.Registry.Devices
import BoardLink.Proofs.Registry.Told
import BoardLink.Proofs.Text.ByteOrder

/-!
# Matching a list of devices

A registry that is matched with a list adds what is missing, going through the list, and then removes
what is not listed, going through itself. What comes of this depends on the list and on which devices
there were, and on nothing else: a serial that is listed twice is added once, where it is listed first
(`Registry.told_addAll`), and the removals are sorted, so the order in which the registry enumerates
its devices does not show (`Registry.reconcileVia_of_perm`).

* `Registry.told_addAll` — what is told about the devices that appear (the crux: a device that has
  just been added is not missing any more when its serial comes again);
* `Registry.reconcile_exact` — the whole operation: the set of devices, what is told, what is left of
  the devices that stay, and that to match the same set again does nothing.
-/

namespace BoardLink

open BoardLink.Wire

/-- First occurrences are the same, whether the others are left out before or after. The induction is
on the length, as the first item takes all its later occurrences with it. -/
theorem eraseDups_filter (l : List String) (keep : String → Bool) :
    (l.filter keep).eraseDups = l.eraseDups.filter keep := by
  induction hlength : l.length using Nat.strong_induction_on generalizing l with
  | _ n ih =>
    cases l with
    | nil => rfl
    | cons a l =>
      have hshorter : (l.filter fun b => !b == a).length < n := by
        rw [← hlength, List.length_cons]
        exact Nat.lt_succ_of_le (List.length_filter_le _ _)
      have hlater := ih _ hshorter _ rfl
      rw [List.eraseDups_cons, List.filter_cons, List.filter_cons, ← hlater, List.filter_filter]
      cases ha : keep a with
      | true =>
        rw [if_pos rfl, if_pos rfl, List.eraseDups_cons, List.filter_filter]
        simp only [Bool.and_comm]
      | false =>
        -- the item itself is left out, so it does not matter that its occurrences are
        rw [if_neg Bool.false_ne_true, if_neg Bool.false_ne_true]
        congr 1
        refine List.filter_congr fun b _ => ?_
        by_cases hb : b = a
        · simp [hb, ha]
        · simp [hb]

namespace Registry

variable {κ : Type} [Capability κ]

/-! ### The devices that appear -/

/-- The serials of a list that are not attached, each where it comes first. -/
def missing (r : Registry κ) (serials : List String) : List String :=
  serials.eraseDups.filter fun x => !r.contains x

/-- A serial is missing if it is not attached, and from then on it is not missing any more. -/
theorem missing_cons (r : Registry κ) (x : String) (serials : List String) :
    r.missing (x :: serials) =
      (if r.contains x then [] else [x]) ++ (r.add x).2.missing serials := by
  -- the first serial is attached now, so that it is left out of what is missing behind it
  have hadded : ∀ y, (!(r.add x).2.contains y) = (!r.contains y && !y == x) := by
    intro y
    rw [Bool.eq_iff_iff, Bool.not_eq_true', Bool.and_eq_true, Bool.not_eq_true', Bool.not_eq_true',
      ← Bool.not_eq_true, contains_add]
    simp [and_comm]
  have hlater : (r.add x).2.missing serials =
      (serials.filter fun b => !b == x).eraseDups.filter fun y => !r.contains y := by
    rw [missing, eraseDups_filter, List.filter_filter]
    exact List.filter_congr fun y _ => hadded y
  rw [hlater, missing, List.eraseDups_cons, List.filter_cons]
  cases r.contains x <;> rfl

/-- **What is told about devices that appear**: each that was missing, once, and with its capability. -/
theorem told_addAll (r : Registry κ) (serials : List String) :
    r.told (serials.map .added) = (r.missing serials).map fun x =>
      .deviceAdded x ((r.table.instantiate? x).map Capability.name) := by
  induction serials generalizing r with
  | nil => rfl
  | cons x serials ih =>
    have happly : (r.apply (.added x)).2 = (r.add x).2 := rfl
    rw [List.map_cons, told, happly, ih, table_add, missing_cons, List.map_append, tells]
    split <;> rfl

/-! ### The devices that disappear -/

/-- A registry that is made to match a list, and goes through its own devices in the order `keys`. -/
def reconcileVia (r : Registry κ) (serials keys : List String) : Registry κ :=
  (r.addAll serials).removeAll (sortSerials (keys.filter fun x => !serials.contains x))

/-- **The order of the devices does not show**, as they are sorted before they are removed. -/
theorem reconcileVia_of_perm {r : Registry κ} {serials keys : List String}
    (h : keys.Perm ((r.addAll serials).devices.map (·.serial))) :
    r.reconcileVia serials keys = r.reconcile serials := by
  -- two sorted lists with the same items are the same
  have hsorted : ∀ {a b : List String}, a.Perm b → sortSerials a = sortSerials b := by
    intro a b hab
    have hperm : (sortSerials a).Perm (sortSerials b) :=
      (List.mergeSort_perm a _).trans (hab.trans (List.mergeSort_perm b _).symm)
    exact hperm.eq_of_pairwise' (pairwise_sortSerials a) (pairwise_sortSerials b)
  rw [reconcileVia, hsorted (h.filter _)]
  rfl

/-- The serials that are removed: attached and not listed, in ascending order. -/
def unlisted (r : Registry κ) (serials : List String) : List String :=
  sortSerials (((r.addAll serials).devices.map (·.serial)).filter fun x => !serials.contains x)

theorem mem_unlisted_iff {r : Registry κ} {serials : List String} {x : String} :
    x ∈ r.unlisted serials ↔ r.contains x ∧ x ∉ serials := by
  -- the devices of the list have appeared by now, so those that go are among both kinds
  have hgrown : x ∈ (r.addAll serials).devices.map (·.serial) ↔ x ∈ serials ∨ r.contains x := by
    rw [List.mem_map, ← contains_addAll]
    exact contains_iff.symm
  rw [unlisted, sortSerials, List.mem_mergeSort, List.mem_filter, hgrown]
  simp only [Bool.not_eq_true', List.contains_eq_mem, decide_eq_false_iff_not]
  constructor
  · rintro ⟨hlisted | hattached, hnot⟩
    · exact absurd hlisted hnot
    · exact ⟨hattached, hnot⟩
  · rintro ⟨hattached, hnot⟩
    exact ⟨.inr hattached, hnot⟩

theorem OnePerSerial.pairwise_unlisted {r : Registry κ} (h : r.OnePerSerial)
    (serials : List String) : (r.unlisted serials).Pairwise (· < ·) := by
  -- the devices that appeared keep serials apart
  have hone : (r.addAll serials).OnePerSerial := by
    rw [addAll_eq_applyAll]
    exact h.applyAll _
  exact pairwise_lt_sortSerials (hone.filter _)

/-- What is told when a registry is matched with a list. -/
theorem told_listing {r : Registry κ} (h : r.OnePerSerial) (serials : List String) :
    r.told (r.listing serials) =
      (r.missing serials).map (fun x =>
        .deviceAdded x ((r.table.instantiate? x).map Capability.name)) ++
      (r.unlisted serials).map .deviceRemoved := by
  have hlisting : r.listing serials =
      serials.map .added ++ (r.unlisted serials).map .removed := rfl
  have hnodup : (r.unlisted serials).Nodup :=
    (h.pairwise_unlisted serials).imp fun hlt => hlt.ne
  -- all of them are still attached when the first one is removed
  have hpresent : ∀ x ∈ r.unlisted serials, (r.addAll serials).contains x := by
    intro x hx
    exact contains_addAll.2 (.inr (mem_unlisted_iff.1 hx).1)
  rw [hlisting, told_append, told_addAll, ← addAll_eq_applyAll, told_map_removed hnodup hpresent]

/-! ### What stays -/

omit [Capability κ] in
theorem dropped_removeAll (r : Registry κ) (gone : List String) :
    (r.removeAll gone).dropped = r.dropped := by
  have hremove : ∀ (r : Registry κ) x, (r.remove x).2.dropped = r.dropped := by
    intro r x
    unfold remove
    split <;> rfl
  induction gone generalizing r with
  | nil => rfl
  | cons x gone ih => exact (ih (r.remove x).2).trans (hremove r x)

theorem dropped_addAll (r : Registry κ) (serials : List String) :
    (r.addAll serials).dropped = r.dropped := by
  have hadd : ∀ (r : Registry κ) x, (r.add x).2.dropped = r.dropped := by
    intro r x
    unfold add
    split <;> rfl
  induction serials generalizing r with
  | nil => rfl
  | cons x serials ih => exact (ih (r.add x).2).trans (hadd r x)

/-- The device of a listed serial is the one that was there, or a new one. -/
theorem get?_reconcile {r : Registry κ} {serials : List String} {x : String} (h : x ∈ serials) :
    (r.reconcile serials).get? x = some ((r.get? x).getD ⟨x, r.table.instantiate? x⟩) := by
  -- a listed device is not among those that go
  have hstays : x ∉ r.unlisted serials := fun hx => (mem_unlisted_iff.1 hx).2 h
  show ((r.addAll serials).removeAll (r.unlisted serials)).get? x = _
  rw [get?_removeAll, if_neg hstays, get?_addAll, if_pos h]

theorem addAll_of_contains {r : Registry κ} {serials : List String}
    (h : ∀ x ∈ serials, r.contains x) : r.addAll serials = r := by
  induction serials with
  | nil => rfl
  | cons x serials ih =>
    obtain ⟨hx, hothers⟩ := List.forall_mem_cons.1 h
    have hadd : (r.add x).2 = r := by
      rw [add, if_pos hx]
    show (r.add x).2.addAll serials = r
    rw [hadd, ih hothers]

/-- A registry that holds exactly a list is not changed by being matched with it. -/
theorem reconcile_of_contains {r : Registry κ} {serials : List String}
    (h : ∀ x, r.contains x ↔ x ∈ serials) : r.reconcile serials = r := by
  -- nothing is unlisted, so nothing goes, and nothing was missing
  have hgone : r.unlisted serials = [] := by
    rw [List.eq_nil_iff_forall_not_mem]
    intro x hx
    obtain ⟨hattached, hnot⟩ := mem_unlisted_iff.1 hx
    exact hnot ((h x).1 hattached)
  show (r.addAll serials).removeAll (r.unlisted serials) = r
  rw [hgone, addAll_of_contains fun x hx => (h x).2 hx]
  rfl

/-- **A registry is matched with a list exactly.** In whatever order it enumerates its devices:

* it holds exactly the serials of the list, each of them once;
* it tells the devices that were missing, each once and in the order in which they are listed first,
  and then, in ascending order of their bytes, the devices that were attached and are not listed;
* a device that stays is the one that was there, with its capability as it was, and a device that
  appears has the capability that the table makes for its serial;
* what was dropped before is counted as before;
* to match it with any list of the same serials again changes nothing and tells nothing. -/
theorem reconcile_exact {r : Registry κ} (hone : r.OnePerSerial) (serials : List String) :
    let r' := r.reconcile serials
    (∀ keys : List String, keys.Perm ((r.addAll serials).devices.map (·.serial)) →
      r.reconcileVia serials keys = r') ∧
    (∀ x, r'.contains x ↔ x ∈ serials) ∧ r'.OnePerSerial ∧
    (∃ gone : List String,
      r'.notifications = r.notifications ++
        ((serials.eraseDups.filter fun x => !r.contains x).map fun x =>
          .deviceAdded x ((r.table.instantiate? x).map Capability.name)) ++
        gone.map .deviceRemoved ∧
      gone.Pairwise (fun a b => utf8 a < utf8 b) ∧ ∀ x, x ∈ gone ↔ r.contains x ∧ x ∉ serials) ∧
    (∀ x ∈ serials, (∀ d, r.get? x = some d → r'.get? x = some d) ∧
      (¬ r.contains x → r'.get? x = some ⟨x, r.table.instantiate? x⟩)) ∧
    r'.dropped = r.dropped ∧
    ∀ again : List String, (∀ x, x ∈ again ↔ x ∈ serials) → r'.reconcile again = r' := by
  intro r'
  have hholds : ∀ x, r'.contains x ↔ x ∈ serials := fun x => contains_reconcile
  -- the order does not show, and what is held, told, kept and counted, and the second listing,
  -- follow
  refine ⟨fun keys hkeys => reconcileVia_of_perm hkeys, hholds, hone.reconcile serials, ?_, ?_, ?_, ?_⟩
  · refine ⟨r.unlisted serials, ?_, ?_, fun x => mem_unlisted_iff⟩
    · show (r.reconcile serials).notifications = _
      rw [reconcile_eq_applyAll, notifications_applyAll, told_listing hone, List.append_assoc]
      rfl
    · exact (hone.pairwise_unlisted serials).imp utf8_lt_utf8_iff.2
  · intro x hx
    have hdevice : r'.get? x = _ := get?_reconcile hx
    refine ⟨fun d hd => ?_, fun habsent => ?_⟩
    · rw [hdevice, hd]
      rfl
    · rw [hdevice, get?_eq_none_of_absent habsent]
      rfl
  · exact (dropped_removeAll _ _).trans (dropped_addAll r serials)
  · intro again hagain
    exact reconcile_of_contains fun x => (hholds x).trans (hagain x).symm

/-- Three recorders, of which one has recorded a change. A list names that one twice, and a new one in
front of it; afterwards the same two are listed the other way round. -/
theorem reconcile_exact_recorders :
    let recorder (x : String) (changes : List Change) : Device Known := ⟨x, some (.recorder changes)⟩
    let r : Registry Known :=
      { devices := [recorder "REC-2" [(0, 1, 5)], recorder "REC-3" [], recorder "REC-1" []]
        own := some (CapabilityTable.register {} "REC" fun _ => .recorder []) }
    let r' := r.reconcile ["REC-9", "REC-2", "REC-9", "REC-2"]
    r.OnePerSerial ∧
      r'.notifications = [.deviceAdded "REC-9" (some "recorder"), .deviceRemoved "REC-1",
        .deviceRemoved "REC-3"] ∧
      r'.get? "REC-2" = some (recorder "REC-2" [(0, 1, 5)]) ∧
      r'.reconcile ["REC-2", "REC-9"] = r' := by
  intro recorder r r'
  have hone : r.OnePerSerial := by
    show ["REC-2", "REC-3", "REC-1"].Nodup
    decide
  obtain ⟨-, -, -, ⟨gone, htold, hsorted, hgone⟩, hdevices, -, hagain⟩ :=
    reconcile_exact hone ["REC-9", "REC-2", "REC-9", "REC-2"]
  refine ⟨hone, ?_, ?_, ?_⟩
  · -- the two that are not listed, in ascending order
    obtain rfl : gone = ["REC-1", "REC-3"] := by
      refine eq_of_ascending (hsorted.imp utf8_lt_utf8_iff.1) (by decide) fun x => ?_
      rw [hgone, contains_iff]
      simp only [r, recorder, List.mem_cons, List.not_mem_nil, or_false]
      constructor
      · rintro ⟨⟨d, rfl | rfl | rfl, rfl⟩, hnot⟩
        · exact absurd (by decide) hnot
        · exact .inr rfl
        · exact .inl rfl
      · rintro (rfl | rfl)
        · exact ⟨⟨_, .inr (.inr rfl), rfl⟩, by decide⟩
        · exact ⟨⟨_, .inr (.inl rfl), rfl⟩, by decide⟩
    rw [show r'.notifications = _ from htold]
    rfl
  · exact (hdevices "REC-2" (by decide)).1 _ rfl
  · refine hagain _ fun x => ?_
    simp only [List.mem_cons, List.not_mem_nil, or_false]
    tauto

end Registry

end BoardLink
