import BoardLink.Monitor
import BoardLink.Proofs.Registry.Devices
import BoardLink.Proofs.Session.Notifications

/-!
# What a monitor knows of its boards

A monitor makes a tracker for each analog output board that appears, and for nothing else
(`Monitor.Boards`). The tracker keeps the last status that the board has reported. What a monitor
knows of one board therefore depends on the events about this board alone: it appears, it reports a
status, it disappears (`Monitor.restate`). What happens to other devices and registers does not
matter (`Monitor.Boards.known?_applyAll`).
-/

namespace BoardLink

open BoardLink.Wire

namespace Monitor

open BoardLink.Faout

/-- A tracker is made for a serial with the lead of the boards, and for no other. -/
theorem instantiate?_capabilities (x : String) : capabilities.instantiate? x =
    if CapabilityTable.matchesLead serialLead x then some {} else none := by
  show ((List.find? _ [(serialLead, Tracker.make)]).map _) = _
  rw [List.find?_singleton]
  split <;> rfl

/-- **A registry of boards**: it makes trackers for boards, and each device has one exactly if it is
a board. -/
structure Boards (r : Registry Tracker) : Prop where
  table : r.table = capabilities
  tracked : ∀ d ∈ r.devices,
    d.capability.isSome = CapabilityTable.matchesLead serialLead d.serial

theorem Boards.apply {r : Registry Tracker} (h : Boards r) (e : Event) : Boards (r.apply e).2 := by
  cases e with
  | added y =>
    simp only [Registry.apply, Registry.add]
    split
    · exact h
    -- the new device is tracked as its serial says, and the others as before
    · refine ⟨h.table, ?_⟩
      intro d hd
      rcases List.mem_append.1 hd with hd | hd
      · exact h.tracked d hd
      · obtain rfl := List.mem_singleton.1 hd
        show (r.table.instantiate? y).isSome = _
        rw [h.table, instantiate?_capabilities]
        split <;> simp_all
  | removed y =>
    simp only [Registry.apply, Registry.remove]
    split
    -- fewer devices, each tracked as before
    · exact ⟨h.table, fun d hd => h.tracked d (List.mem_filter.1 hd).1⟩
    · exact h
  | changed y addr port w =>
    simp only [Registry.apply, Registry.change]
    split
    · refine ⟨h.table, ?_⟩
      intro d' hd'
      obtain ⟨d, hd, rfl⟩ := List.mem_map.1 hd'
      -- a device keeps its serial, and its tracker if it has one
      have htracked := h.tracked d hd
      split
      · exact Option.isSome_map.trans htracked
      · exact htracked
    · exact ⟨h.table, h.tracked⟩

theorem Boards.applyAll {r : Registry Tracker} (h : Boards r) (events : List Event) :
    Boards (r.applyAll events) := by
  induction events generalizing r with
  | nil => exact h
  | cons e events ih => exact ih (h.apply e)

/-- A board that is attached has a tracker. -/
theorem Boards.exists_tracker {r : Registry Tracker} (h : Boards r) {x : String}
    (hx : CapabilityTable.matchesLead serialLead x = true) {d : Device Tracker}
    (hd : r.get? x = some d) : ∃ t, d.capability = some t := by
  rw [← Option.isSome_iff_exists, h.tracked d (List.mem_of_find?_eq_some hd),
    Registry.serial_of_get? hd, hx]

/-- What is known of a board: nothing unless it is attached, and then the status that it has reported
last, if it has reported one. -/
def known? (r : Registry Tracker) (x : String) : Option (Option Status) :=
  (r.get? x).map fun d => d.capability.bind (·.lastStatus)

/-- A device with a tracker is a board, and what is known of it is what the tracker keeps. -/
theorem Boards.of_tracker {r : Registry Tracker} (h : Boards r) {x : String} {t : Tracker}
    (ht : (r.get? x).bind (·.capability) = some t) :
    CapabilityTable.matchesLead serialLead x = true ∧ known? r x = some t.lastStatus := by
  obtain ⟨d, hd, hcapability⟩ := Option.bind_eq_some_iff.1 ht
  -- the tracker was made for the serial of the device
  constructor
  · rw [← Registry.serial_of_get? hd, ← h.tracked d (List.mem_of_find?_eq_some hd), hcapability]
    rfl
  · rw [known?, hd]
    simp only [Option.map_some, hcapability, Option.bind_some]

/-- What an event makes of what is known of board `x`. -/
def restate (x : String) (known : Option (Option Status)) : Event → Option (Option Status)
  | .added y => if y = x then some (known.getD none) else known
  | .removed y => if y = x then none else known
  | .changed y addr port w =>
    if y = x ∧ addr = registersAddr ∧ port = statusPort then
      known.map fun _ => some (Status.ofWord w)
    else known

/-- **What is known of a board follows an event**, if it is one about this board. -/
theorem Boards.known?_apply {r : Registry Tracker} (h : Boards r) {x : String}
    (hx : CapabilityTable.matchesLead serialLead x = true) (e : Event) :
    known? (r.apply e).2 x = restate x (known? r x) e := by
  cases e with
  | added y =>
    show Option.map _ ((r.add y).2.get? x) = _
    rw [Registry.get?_add, h.table, instantiate?_capabilities, if_pos hx, restate, known?]
    split
    · -- a board that appears has reported nothing yet
      cases r.get? x <;> rfl
    · rfl
  | removed y =>
    show Option.map _ ((r.remove y).2.get? x) = _
    rw [Registry.get?_remove, restate, known?]
    split <;> rfl
  | changed y addr port w =>
    show Option.map _ ((r.change y addr port w).2.get? x) = _
    rw [Registry.get?_change, restate, known?]
    cases hd : r.get? x with
    | none => split <;> split <;> rfl
    | some d =>
      obtain ⟨t, ht⟩ : ∃ t, d.capability = some t := h.exists_tracker hx hd
      -- only the status register of this board is kept, any other change is not of the status
      by_cases hsame : y = x
      · simp only [hsame, if_true, Option.map_some, true_and, Device.registerChanged, ht,
          Option.bind_some]
        show some (t.registerChanged addr port w).lastStatus = _
        unfold Tracker.registerChanged
        by_cases hstatus : addr = registersAddr ∧ port = statusPort
        · simp [hstatus]
        · rw [if_neg hstatus, if_neg (by simpa using hstatus)]
      · rw [if_neg hsame, if_neg (fun hboth => hsame hboth.1)]

theorem Boards.known?_applyAll {r : Registry Tracker} (h : Boards r) {x : String}
    (hx : CapabilityTable.matchesLead serialLead x = true) (events : List Event) :
    known? (r.applyAll events) x = events.foldl (restate x) (known? r x) := by
  induction events generalizing r with
  | nil => rfl
  | cons e events ih =>
    rw [List.foldl_cons, ← h.known?_apply hx]
    exact ih (h.apply e)

end Monitor

end BoardLink
