import BoardLink.Proofs.Registry.Serials
import Mathlib.Data.List.Sort
import Mathlib.Data.String.Basic

/-!
# What a registry tells

Whatever happens to a registry is a sequence of events: a device list makes the missing devices
appear and the others disappear (`Registry.reconcile_eq_applyAll`), and clearing makes all of them
disappear (`Registry.clear_eq_applyAll`). So it is enough to say of one event what the registry
tells about it (`Registry.tells`), and each fact about notifications is one about a single event.

* `Registry.notifications_applyAll` — the notifications queued are those of the events, in their
  order, behind those that were queued before;
* `Registry.replay_told` — who follows them from the devices that there were gets the devices that
  there are, with the names of their capabilities (the crux: an event that changes nothing tells
  nothing, so each notification can be followed);
* `Registry.told_clearing` — clearing tells the removal of each device once, in ascending order.
-/

namespace BoardLink

open BoardLink.Wire

/-! ### Serials in order -/

theorem pairwise_sortSerials (serials : List String) : (sortSerials serials).Pairwise (· ≤ ·) := by
  -- the order of the bytes is total, which is what the sort asks for
  have htrans : ∀ a b c, serialLe a b = true → serialLe b c = true → serialLe a c = true := by
    intro a b c hab hbc
    simp only [serialLe, decide_eq_true_eq] at *
    exact hab.trans hbc
  have htotal : ∀ a b, (serialLe a b || serialLe b a) = true := by
    intro a b
    simp only [serialLe, Bool.or_eq_true, decide_eq_true_eq]
    exact le_total a b
  have hsorted := List.pairwise_mergeSort htrans htotal serials
  exact hsorted.imp fun hab => by simpa only [serialLe, decide_eq_true_eq] using hab

theorem pairwise_lt_sortSerials {serials : List String} (h : serials.Nodup) :
    (sortSerials serials).Pairwise (· < ·) := by
  have hne : (sortSerials serials).Pairwise (· ≠ ·) := (List.mergeSort_perm _ _).nodup_iff.2 h
  exact (pairwise_sortSerials serials).imp₂ (fun _ _ => lt_of_le_of_ne) hne

/-- Serials in ascending order are told by which they are. -/
theorem eq_of_ascending {l l' : List String} (h : l.Pairwise (· < ·)) (h' : l'.Pairwise (· < ·))
    (hmem : ∀ x, x ∈ l ↔ x ∈ l') : l = l' := by
  -- ascending serials are without repetition, so the same members make the same list up to order
  have hnodup : ∀ {l : List String}, l.Pairwise (· < ·) → l.Nodup :=
    fun hl => hl.imp fun hlt => hlt.ne
  have hperm : l.Perm l' := (List.perm_ext_iff_of_nodup (hnodup h) (hnodup h')).2 hmem
  exact hperm.eq_of_pairwise' (h.imp le_of_lt) (h'.imp le_of_lt)

/-! ### Following notifications -/

/-- The devices that an application knows of: their serials with the names of their capabilities. -/
abbrev Roster := List (String × Option String)

/-- The devices known after a notification. There is none if the notification contradicts them: a
device that appears must not be there, and one that disappears or changes must. -/
def Notification.replay (known : Roster) : Notification → Option Roster
  | .deviceAdded serial capability =>
    if serial ∈ known.map (·.1) then none else some (known ++ [(serial, capability)])
  | .deviceRemoved serial =>
    if serial ∈ known.map (·.1) then some (known.filter (·.1 ≠ serial)) else none
  | .registerChanged serial .. => if serial ∈ known.map (·.1) then some known else none

/-- The devices known after notifications in their order. -/
def Notification.replayAll (known : Roster) (told : List Notification) : Option Roster :=
  told.foldlM replay known

namespace Registry

variable {κ : Type}

/-- The devices of a registry as an application should know of them. -/
def roster [Capability κ] (r : Registry κ) : Roster :=
  r.devices.map fun d => (d.serial, d.capabilityName?)

theorem mem_roster_serials_iff [Capability κ] {r : Registry κ} {x : String} :
    x ∈ r.roster.map (·.1) ↔ r.contains x := by
  rw [roster, List.map_map, contains_iff, List.mem_map]
  exact Iff.rfl

/-! ### One device per serial -/

/-- No serial has two devices. -/
def OnePerSerial (r : Registry κ) : Prop := (r.devices.map (·.serial)).Nodup

theorem OnePerSerial.remove {r : Registry κ} (h : r.OnePerSerial) (serial : String) :
    (r.remove serial).2.OnePerSerial := by
  unfold Registry.remove
  split
  · exact h.sublist (List.filter_sublist.map _)
  · exact h

theorem OnePerSerial.add [Capability κ] {r : Registry κ} (h : r.OnePerSerial) (serial : String) :
    (r.add serial).2.OnePerSerial := by
  unfold Registry.add
  split
  · exact h
  next habsent =>
    -- the new serial is none of the others
    show (List.map _ (r.devices ++ [_])).Nodup
    rw [List.map_append, List.map_singleton, List.nodup_append]
    refine ⟨h, List.nodup_singleton _, ?_⟩
    rintro x hx y hy rfl
    obtain ⟨d, hd, hserial⟩ := List.mem_map.1 hx
    exact habsent (contains_iff.2 ⟨d, hd, hserial.trans (List.mem_singleton.1 hy)⟩)

theorem OnePerSerial.change [Capability κ] {r : Registry κ} (h : r.OnePerSerial) (serial : String)
    (addr port : UInt8) (value : UInt16) :
    (r.change serial addr port value).2.OnePerSerial := by
  unfold Registry.change
  split
  · show (List.map _ (r.devices.map _)).Nodup
    rw [List.map_map]
    -- a change of a device keeps its serial
    have hserials : ((·.serial) ∘ fun d : Device κ =>
        if d.serial = serial then d.registerChanged addr port value else d) = (·.serial) := by
      funext d
      rw [Function.comp_apply]
      split <;> rfl
    rw [hserials]
    exact h
  · exact h

/-- Serials in ascending order, each of them once. -/
theorem OnePerSerial.pairwise_serials {r : Registry κ} (h : r.OnePerSerial) :
    r.serials.Pairwise (· < ·) :=
  pairwise_lt_sortSerials h

/-! ### All that happens is events -/

variable [Capability κ]

/-- The registry after events in their order. -/
def applyAll (r : Registry κ) (events : List Event) : Registry κ :=
  events.foldl (fun r e => (r.apply e).2) r

theorem applyAll_append (r : Registry κ) (events later : List Event) :
    r.applyAll (events ++ later) = (r.applyAll events).applyAll later :=
  List.foldl_append

theorem OnePerSerial.apply {r : Registry κ} (h : r.OnePerSerial) (e : Event) :
    (r.apply e).2.OnePerSerial := by
  cases e with
  | added serial => exact h.add serial
  | removed serial => exact h.remove serial
  | changed serial addr port value => exact h.change serial addr port value

theorem OnePerSerial.applyAll {r : Registry κ} (h : r.OnePerSerial) (events : List Event) :
    (r.applyAll events).OnePerSerial := by
  induction events generalizing r with
  | nil => exact h
  | cons e events ih => exact ih (h.apply e)

/-- A registry follows events one after the other. -/
theorem contains_applyAll {r : Registry κ} {events : List Event} {x : String} :
    (r.applyAll events).contains x ↔ x ∈ Event.followAll r.serials events := by
  induction events generalizing r with
  | nil => exact mem_serials_iff.symm
  | cons e events ih =>
    have hcons : r.applyAll (e :: events) = (r.apply e).2.applyAll events := rfl
    rw [hcons, ih]
    -- what is followed next depends only on the serials that are there by then
    exact Event.mem_followAll_congr events (mem_serials_iff.trans contains_apply)

/-- The events that a device list stands for: the devices that it names appear, in its order, and
those that it does not name disappear, in ascending order. -/
def listing (r : Registry κ) (serials : List String) : List Event :=
  let gone := ((r.addAll serials).devices.map (·.serial)).filter fun s => !serials.contains s
  serials.map .added ++ (sortSerials gone).map .removed

/-- The events that clearing stands for: all devices disappear, in ascending order. -/
def clearing (r : Registry κ) : List Event := r.serials.map .removed

theorem removeAll_eq_applyAll (r : Registry κ) (serials : List String) :
    r.removeAll serials = r.applyAll (serials.map .removed) := by
  rw [removeAll, applyAll, List.foldl_map]
  rfl

theorem addAll_eq_applyAll (r : Registry κ) (serials : List String) :
    r.addAll serials = r.applyAll (serials.map .added) := by
  rw [addAll, applyAll, List.foldl_map]
  rfl

theorem reconcile_eq_applyAll (r : Registry κ) (serials : List String) :
    r.reconcile serials = r.applyAll (r.listing serials) := by
  rw [listing, applyAll_append, ← addAll_eq_applyAll, ← removeAll_eq_applyAll]
  rfl

theorem OnePerSerial.reconcile {r : Registry κ} (h : r.OnePerSerial) (serials : List String) :
    (r.reconcile serials).OnePerSerial := by
  rw [reconcile_eq_applyAll]
  exact h.applyAll _

theorem clear_eq_applyAll (r : Registry κ) : r.clear = r.applyAll r.clearing :=
  removeAll_eq_applyAll r r.serials

/-! ### What an event tells -/

/-- What a registry tells about an event: nothing, if the event changes nothing in it. -/
def tells (r : Registry κ) : Event → List Notification
  | .added serial =>
    if r.contains serial then []
    else [.deviceAdded serial ((r.table.instantiate? serial).map Capability.name)]
  | .removed serial => if r.contains serial then [.deviceRemoved serial] else []
  | .changed serial addr port value =>
    if r.contains serial then [.registerChanged serial addr port value] else []

/-- What a registry tells about events in their order. -/
def told (r : Registry κ) : List Event → List Notification
  | [] => []
  | e :: events => r.tells e ++ (r.apply e).2.told events

theorem told_append (r : Registry κ) (events later : List Event) :
    r.told (events ++ later) = r.told events ++ (r.applyAll events).told later := by
  induction events generalizing r with
  | nil => rfl
  | cons e events ih =>
    rw [List.cons_append, told, told, ih, List.append_assoc]
    rfl

/-- An event tells one thing or none, and says which. -/
theorem length_tells (r : Registry κ) (e : Event) :
    (r.tells e).length = (r.apply e).1.toNat := by
  cases e with
  | added serial =>
    simp only [Registry.apply, Registry.add, tells]
    split <;> rfl
  | removed serial =>
    simp only [Registry.apply, Registry.remove, tells]
    split <;> rfl
  | changed serial addr port value =>
    simp only [Registry.apply, Registry.change, tells]
    split <;> rfl

/-- Each notification is what one event tells. -/
theorem told_eq_append_cons {r : Registry κ} {events : List Event} {before tail : List Notification}
    {n : Notification} (h : r.told events = before ++ n :: tail) :
    ∃ earlier e rest, events = earlier ++ e :: rest ∧ r.told earlier = before ∧
      (r.applyAll earlier).tells e = [n] := by
  induction events generalizing r before with
  | nil =>
    rw [told] at h
    exact absurd h.symm (by simp)
  | cons e events ih =>
    rw [told] at h
    -- an event tells one thing at most, which is why the log can be cut between events
    have hone : r.tells e = [] ∨ ∃ m, r.tells e = [m] := by
      cases e <;> simp only [tells] <;> split <;> simp
    rcases hone with hnone | ⟨m, hm⟩
    -- a silent event goes to the front, and the notification is one of the others
    · rw [hnone, List.nil_append] at h
      obtain ⟨earlier, e', rest, rfl, hbefore, htells⟩ := ih h
      refine ⟨e :: earlier, e', rest, rfl, ?_, htells⟩
      rw [told, hnone, hbefore, List.nil_append]
    -- the first event tells something: it is the one, or it is the first of those before
    · rw [hm, List.singleton_append] at h
      cases before with
      | nil =>
        obtain ⟨rfl, -⟩ := List.cons.inj h
        exact ⟨[], e, events, rfl, rfl, hm⟩
      | cons b before =>
        obtain ⟨rfl, hothers⟩ := List.cons.inj h
        obtain ⟨earlier, e', rest, rfl, hbefore, htells⟩ := ih hothers
        refine ⟨e :: earlier, e', rest, rfl, ?_, htells⟩
        rw [told, hm, hbefore, List.singleton_append]

/-- Only the event of a register change tells one. -/
theorem tells_eq_registerChanged {r : Registry κ} {e : Event} {x : String} {addr port : UInt8}
    {v : UInt16} (h : r.tells e = [.registerChanged x addr port v]) :
    e = .changed x addr port v := by
  cases e with
  | added y =>
    rw [tells] at h
    split at h <;> simp at h
  | removed y =>
    rw [tells] at h
    split at h <;> simp at h
  | changed y addr' port' w =>
    rw [tells] at h
    split at h
    -- the branch that tells something tells just the change that came in
    · simp only [List.cons.injEq, Notification.registerChanged.injEq, and_true] at h
      obtain ⟨rfl, rfl, rfl, rfl⟩ := h
      rfl
    · cases h

/-- Each event queues what is told about it. -/
theorem notifications_apply (r : Registry κ) (e : Event) :
    (r.apply e).2.notifications = r.notifications ++ r.tells e := by
  -- a branch that tells nothing leaves the queue, and the other one notifies once
  cases e with
  | added serial =>
    simp only [Registry.apply, Registry.add, tells]
    split
    · exact (List.append_nil _).symm
    · rfl
  | removed serial =>
    simp only [Registry.apply, Registry.remove, tells]
    split
    · rfl
    · exact (List.append_nil _).symm
  | changed serial addr port value =>
    simp only [Registry.apply, Registry.change, tells]
    split
    · rfl
    · exact (List.append_nil _).symm

/-- **The queue holds what was told, in order.** -/
theorem notifications_applyAll (r : Registry κ) (events : List Event) :
    (r.applyAll events).notifications = r.notifications ++ r.told events := by
  induction events generalizing r with
  | nil => exact (List.append_nil _).symm
  | cons e events ih =>
    rw [told, ← List.append_assoc, ← notifications_apply]
    exact ih _

/-! ### What an event tells can be followed -/

theorem replay_tells (r : Registry κ) (e : Event) :
    Notification.replayAll r.roster (r.tells e) = some (r.apply e).2.roster := by
  cases e with
  | added serial =>
    simp only [Registry.apply, Registry.add, tells]
    split
    · rfl
    next habsent =>
      have hunknown : serial ∉ r.roster.map (·.1) := mt mem_roster_serials_iff.1 habsent
      show (Notification.replay r.roster _ >>= some) = _
      rw [Notification.replay, if_neg hunknown]
      -- the new device is known at the end, as it is there at the end
      show some (r.roster ++ [_]) = some (List.map _ (r.devices ++ [_]))
      rw [List.map_append]
      rfl
  | removed serial =>
    simp only [Registry.apply, Registry.remove, tells]
    split
    next hpresent =>
      -- the device is known, so the removal is no contradiction
      have hknown : serial ∈ r.roster.map (·.1) := mem_roster_serials_iff.2 hpresent
      show (Notification.replay r.roster _ >>= some) = _
      rw [Notification.replay, if_pos hknown]
      show some (r.roster.filter _) = some (List.map _ (r.devices.filter _))
      rw [roster, List.filter_map]
      rfl
    · rfl
  | changed serial addr port value =>
    simp only [Registry.apply, Registry.change, tells]
    split
    next hpresent =>
      have hknown : serial ∈ r.roster.map (·.1) := mem_roster_serials_iff.2 hpresent
      show (Notification.replay r.roster _ >>= some) = _
      rw [Notification.replay, if_pos hknown]
      -- a device keeps its serial, and its capability its name
      show some r.roster = some (List.map _ (r.devices.map _))
      rw [roster, List.map_map]
      congr 2
      funext d
      rw [Function.comp_apply]
      split
      · cases hc : d.capability with
        | none => simp [Device.capabilityName?, Device.registerChanged, hc]
        | some c =>
          simp [Device.capabilityName?, Device.registerChanged, hc, Capability.name_registerChanged]
      · rfl
    · rfl

/-- **What was told can be followed**, and leads from the devices that there were to those that
there are. -/
theorem replay_told (r : Registry κ) (events : List Event) :
    Notification.replayAll r.roster (r.told events) = some (r.applyAll events).roster := by
  induction events generalizing r with
  | nil => rfl
  | cons e events ih =>
    have hfirst := replay_tells r e
    rw [Notification.replayAll] at hfirst
    -- the notifications of the first event lead to the devices behind it, and the rest goes on
    -- there
    rw [told, Notification.replayAll, List.foldlM_append, hfirst]
    exact ih _

/-! ### Clearing -/

/-- Devices that disappear are told one by one. -/
theorem told_map_removed {r : Registry κ} {gone : List String} (hgone : gone.Nodup)
    (hpresent : ∀ x ∈ gone, r.contains x) :
    r.told (gone.map .removed) = gone.map .deviceRemoved := by
  induction gone generalizing r with
  | nil => rfl
  | cons serial gone ih =>
    obtain ⟨hnot, hgone⟩ := List.nodup_cons.1 hgone
    rw [List.map_cons, List.map_cons, told, tells, if_pos (hpresent serial List.mem_cons_self)]
    -- the others are still there when the first one has gone
    refine congrArg (_ :: ·) (ih hgone ?_)
    intro x hx
    refine contains_remove.2 ⟨hpresent x (List.mem_cons_of_mem _ hx), ?_⟩
    rintro rfl
    exact hnot hx

/-- **Clearing tells the removal of each device once**, in ascending order. -/
theorem told_clearing {r : Registry κ} (h : r.OnePerSerial) :
    r.told r.clearing = r.serials.map .deviceRemoved := by
  -- ascending serials have no repetition, so each removal finds its device
  have hserials : r.serials.Nodup := h.pairwise_serials.imp (fun hlt => hlt.ne)
  exact told_map_removed hserials (fun x hx => mem_serials_iff.1 hx)

omit [Capability κ] in
theorem devices_clear (r : Registry κ) : r.clear.devices = [] := by
  rw [List.eq_nil_iff_forall_not_mem]
  intro d hd
  -- a device that is left would be one of those that were removed
  have hcontains : r.clear.contains d.serial := contains_iff.2 ⟨d, hd, rfl⟩
  obtain ⟨hpresent, hnot⟩ := contains_removeAll.1 hcontains
  exact hnot (mem_serials_iff.2 hpresent)

end Registry

end BoardLink
