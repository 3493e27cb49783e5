import BoardLink.Registry

/-!
# The serials of a registry

Which devices are attached, apart from everything that is known about them. Each operation of a
registry is one of a set of serials (`Registry.contains_add` and its companions), so what a sequence
of events comes to can be read off the events alone:

* `Event.follow` — what one event does to a set of serials; a register change does nothing;
* `Registry.contains_apply` — and the registry does the same;
* `Registry.contains_reconcile` — a registry that is made to match a list holds exactly the list,
  whatever it held before.
-/

namespace BoardLink

open BoardLink.Wire

/-! ### Sets of serials -/

namespace Wire.Event

/-- The serials that are attached after an event, if `serials` are before. -/
def follow (serials : List String) : Event → List String
  | .added serial => serial :: serials
  | .removed serial => serials.filter (· ≠ serial)
  | .changed .. => serials

/-- The serials that are attached after events in their order. -/
def followAll (serials : List String) (events : List Event) : List String :=
  events.foldl follow serials

/-- Whether an event is the appearance or the disappearance of a device. -/
def Moves (serial : String) (e : Event) : Prop :=
  e = .added serial ∨ e = .removed serial

/-- After an event, the serial that it moves is where the event says. Of any other serial it does
not matter that the event took place. -/
theorem mem_follow_iff {serials : List String} {e : Event} {x : String} :
    x ∈ follow serials e ↔ e = .added x ∨ (x ∈ serials ∧ e ≠ .removed x) := by
  cases e with
  | added serial =>
    simp only [follow, List.mem_cons, Event.added.injEq]
    constructor
    · rintro (rfl | hx)
      · exact .inl rfl
      · exact .inr ⟨hx, by simp⟩
    · rintro (rfl | ⟨hx, -⟩)
      · exact .inl rfl
      · exact .inr hx
  | removed serial =>
    simp only [follow, List.mem_filter, decide_eq_true_eq, ne_eq, Event.removed.injEq]
    constructor
    · rintro ⟨hx, hne⟩
      exact .inr ⟨hx, fun heq => hne heq.symm⟩
    · rintro (hadded | ⟨hx, hne⟩)
      · cases hadded
      · exact ⟨hx, fun heq => hne heq.symm⟩
  | changed serial addr port value => simp [follow]

/-- Only which serials are in the set matters. -/
theorem mem_followAll_congr {a b : List String} (events : List Event) {x : String}
    (h : x ∈ a ↔ x ∈ b) : x ∈ followAll a events ↔ x ∈ followAll b events := by
  induction events generalizing a b with
  | nil => exact h
  | cons e events ih =>
    refine ih ?_
    rw [mem_follow_iff, mem_follow_iff, h]

/-- **Two sets stay apart exactly where nothing moves.** Once a serial was moved it is where the
last of its moves says, from whichever set the events began. -/
theorem mem_followAll_iff_mem_followAll {a b : List String} {events : List Event} {x : String} :
    (x ∈ followAll a events ↔ x ∈ followAll b events) ↔
      ((∀ e ∈ events, ¬ e.Moves x) → (x ∈ a ↔ x ∈ b)) := by
  induction events generalizing a b with
  | nil => simp [followAll]
  | cons e events ih =>
    have hcons : ∀ c, followAll c (e :: events) = followAll (follow c e) events := fun _ => rfl
    rw [hcons, hcons, ih, mem_follow_iff, mem_follow_iff]
    by_cases hadded : e = .added x
    · -- from here on the serial is in both
      simp [hadded, Moves]
    · by_cases hremoved : e = .removed x
      · -- from here on it is in neither
        simp [hremoved, Moves]
      · -- an event about something else leaves them as they are
        simp [hadded, hremoved, Moves]

end Wire.Event

/-! ### What a registry holds -/

namespace Registry

variable {κ : Type}

theorem contains_iff {r : Registry κ} {x : String} :
    r.contains x ↔ ∃ d ∈ r.devices, d.serial = x := by
  simp [contains]

theorem mem_serials_iff {r : Registry κ} {x : String} : x ∈ r.serials ↔ r.contains x := by
  rw [contains_iff, serials, sortSerials, List.mem_mergeSort, List.mem_map]

@[simp] theorem contains_notify (r : Registry κ) (n : Notification) (x : String) :
    (r.notify n).contains x = r.contains x := rfl

theorem contains_remove {r : Registry κ} {serial x : String} :
    (r.remove serial).2.contains x ↔ r.contains x ∧ x ≠ serial := by
  unfold remove
  split
  · rw [contains_notify, contains_iff, contains_iff]
    simp only [List.mem_filter, decide_eq_true_eq]
    constructor
    · rintro ⟨d, ⟨hd, hne⟩, rfl⟩
      exact ⟨⟨d, hd, rfl⟩, hne⟩
    · rintro ⟨⟨d, hd, rfl⟩, hne⟩
      exact ⟨d, ⟨hd, hne⟩, rfl⟩
  next habsent =>
    -- a serial that is not there is not the one that is looked for
    constructor
    · intro hx
      refine ⟨hx, ?_⟩
      rintro rfl
      exact habsent hx
    · exact And.left

theorem contains_removeAll {r : Registry κ} {gone : List String} {x : String} :
    (r.removeAll gone).contains x ↔ r.contains x ∧ x ∉ gone := by
  induction gone generalizing r with
  | nil => simp [removeAll]
  | cons serial gone ih =>
    have hcons : r.removeAll (serial :: gone) = (r.remove serial).2.removeAll gone := rfl
    rw [hcons, ih, contains_remove, List.mem_cons, not_or, and_assoc]

variable [Capability κ]

theorem contains_add {r : Registry κ} {serial x : String} :
    (r.add serial).2.contains x ↔ x = serial ∨ r.contains x := by
  unfold add
  split
  next hpresent =>
    constructor
    · exact .inr
    · rintro (rfl | hx)
      · exact hpresent
      · exact hx
  · simp only [contains_notify, contains_iff, List.mem_append, List.mem_singleton]
    constructor
    · rintro ⟨d, hd | rfl, rfl⟩
      · exact .inr ⟨d, hd, rfl⟩
      · exact .inl rfl
    · rintro (rfl | ⟨d, hd, rfl⟩)
      · exact ⟨_, .inr rfl, rfl⟩
      · exact ⟨d, .inl hd, rfl⟩

theorem contains_addAll {r : Registry κ} {serials : List String} {x : String} :
    (r.addAll serials).contains x ↔ x ∈ serials ∨ r.contains x := by
  induction serials generalizing r with
  | nil => simp [addAll]
  | cons serial serials ih =>
    have hcons : r.addAll (serial :: serials) = (r.add serial).2.addAll serials := rfl
    rw [hcons, ih, contains_add, List.mem_cons]
    constructor
    · rintro (hx | rfl | hx)
      · exact .inl (.inr hx)
      · exact .inl (.inl rfl)
      · exact .inr hx
    · rintro ((rfl | hx) | hx)
      · exact .inr (.inl rfl)
      · exact .inl hx
      · exact .inr (.inr hx)

/-- A register change leaves the set of devices alone. -/
theorem contains_change {r : Registry κ} {serial : String} {addr port : UInt8} {value : UInt16}
    {x : String} : (r.change serial addr port value).2.contains x ↔ r.contains x := by
  unfold change
  split
  · rw [contains_notify, contains_iff, contains_iff]
    simp only [modifyDevice, List.mem_map]
    constructor
    · rintro ⟨-, ⟨d, hd, rfl⟩, rfl⟩
      -- a device keeps its serial, whether it is the one that changed or not
      refine ⟨d, hd, ?_⟩
      split <;> rfl
    · rintro ⟨d, hd, rfl⟩
      refine ⟨_, ⟨d, hd, rfl⟩, ?_⟩
      split <;> rfl
  · exact Iff.rfl

/-- **A registry follows events.** -/
theorem contains_apply {r : Registry κ} {e : Event} {x : String} :
    (r.apply e).2.contains x ↔ x ∈ e.follow r.serials := by
  cases e with
  | added serial =>
    rw [Event.follow, List.mem_cons, mem_serials_iff]
    exact contains_add
  | removed serial =>
    simp only [Event.follow, List.mem_filter, decide_eq_true_eq, mem_serials_iff]
    exact contains_remove
  | changed serial addr port value =>
    rw [Event.follow, mem_serials_iff]
    exact contains_change

/-- **A registry that was made to match a list holds exactly the list.** -/
theorem contains_reconcile {r : Registry κ} {serials : List String} {x : String} :
    (r.reconcile serials).contains x ↔ x ∈ serials := by
  unfold reconcile
  simp only [contains_removeAll, sortSerials, List.mem_mergeSort, List.mem_filter, List.mem_map,
    ← contains_iff]
  constructor
  · rintro ⟨hx, hgone⟩
    by_cases hlisted : x ∈ serials
    · exact hlisted
    · -- what is not listed is among those that are dropped
      exact absurd ⟨hx, by simpa using hlisted⟩ hgone
  · intro hx
    refine ⟨contains_addAll.2 (.inl hx), ?_⟩
    rintro ⟨-, hgone⟩
    simp [hx] at hgone

end Registry

end BoardLink
