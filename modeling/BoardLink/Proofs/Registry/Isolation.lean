import BoardLink.Capability.Known
import BoardLink.Proofs.Registry.Reconcile
import Mathlib.Data.List.Induction

/-!
# Devices do not see each other

A registry is changed by events, by device lists and by being cleared. To the device with serial `x`
each of these is at most one event (`Registry.Action.about`): a list that names `x` is its
appearance, one that does not is its disappearance, and so is clearing. What becomes of `x`, and what
is told about it, depends on these events and on nothing else.

* `Registry.AlikeOn` — two registries of which `x` cannot tell which one it is in;
* `Registry.alikeOn_run` — the crux: an action on the whole registry is, for `x`, the one event. A
  list that names `x` again and again makes it appear once, as all but the first of these events do
  nothing (`Registry.filter_told_map`);
* `Registry.get?_runAll_of_contains` — so the capability of a device is the one that was made when it
  appeared last, and has seen exactly the register changes since then;
* `Registry.isolated` — both together, for one run and for two.
-/

namespace BoardLink

open BoardLink.Wire

/-- The register change that an event is, if it is one. -/
def Wire.Event.change? : Event → Option Change
  | .changed _ addr port value => some (addr, port, value)
  | _ => none

/-- A capability that has seen register changes. -/
def Capability.seeing {κ : Type} [Capability κ] (changes : List Change) (c : κ) : κ :=
  changes.foldl (fun c (addr, port, value) => Capability.registerChanged c addr port value) c

/-- A device that has seen changes sees another one. -/
theorem registerChanged_seeing {κ : Type} [Capability κ] (x : String) (made : Option κ)
    (changes : List Change) (addr port : UInt8) (value : UInt16) :
    Device.registerChanged ⟨x, made.map (Capability.seeing changes)⟩ addr port value =
      ⟨x, made.map (Capability.seeing (changes ++ [(addr, port, value)]))⟩ := by
  -- the capability sees the new change behind all others
  have hlast : ∀ c : κ, Capability.seeing (changes ++ [(addr, port, value)]) c =
      Capability.registerChanged (Capability.seeing changes c) addr port value :=
    fun c => List.foldl_append
  rw [Device.registerChanged, Option.map_map]
  congr 2
  funext c
  exact (hlast c).symm

/-- A recorder holds what it has seen. -/
theorem seeing_recorder (seen changes : List Change) :
    Capability.seeing changes (Known.recorder seen) = .recorder (seen ++ changes) := by
  induction changes generalizing seen with
  | nil => rw [List.append_nil]; rfl
  | cons change changes ih =>
    rw [← List.singleton_append, ← List.append_assoc]
    exact ih (seen ++ [change])

/-- A change of the status register of an analog output board. -/
def Change.isStatus : Change → Bool
  | (addr, port, _) => addr = Faout.registersAddr && port = Faout.statusPort

/-- The status that the last of several changes reports, if one does. -/
def Change.lastStatus? (changes : List Change) : Option Faout.Status :=
  (changes.filter Change.isStatus).getLast?.map fun (_, _, value) => .ofWord value

theorem Change.lastStatus?_concat (changes : List Change) (addr port : UInt8) (value : UInt16) :
    lastStatus? (changes ++ [(addr, port, value)]) =
      if addr = Faout.registersAddr && port = Faout.statusPort then some (.ofWord value)
      else lastStatus? changes := by
  rw [lastStatus?, List.filter_append, List.filter_singleton]
  cases hstatus : isStatus (addr, port, value) with
  | true =>
    rw [cond_true, List.getLast?_concat]
    exact (if_pos hstatus).symm
  | false =>
    rw [cond_false, List.append_nil]
    exact (if_neg (ne_true_of_eq_false hstatus)).symm

/-- A tracker holds the status that was reported last, else the one it held before. -/
theorem seeing_faout (t : Faout.Tracker) (changes : List Change) :
    Capability.seeing changes (Known.faout t) =
      .faout ⟨(Change.lastStatus? changes).or t.lastStatus⟩ := by
  -- the last change decides: the tracker takes over its status if it is one of the status register
  induction changes using List.reverseRecOn with
  | nil => rfl
  | append_singleton changes change ih =>
    obtain ⟨addr, port, value⟩ := change
    have hlast : Capability.seeing (changes ++ [(addr, port, value)]) (Known.faout t) =
        Capability.registerChanged (Capability.seeing changes (Known.faout t)) addr port value :=
      List.foldl_append
    rw [hlast, ih, Change.lastStatus?_concat]
    show Known.faout (Faout.Tracker.registerChanged _ addr port value) = _
    unfold Faout.Tracker.registerChanged
    split <;> rfl

/-- **What came about in a run came about last with one of its steps**, and held ever since. The
induction is on the steps from the last one, which it outlives or comes about with. -/
theorem exists_last_rise {σ α : Type} (step : σ → α → σ) (P : σ → Prop) {s : σ} (hbefore : ¬ P s)
    {run : List α} (hafter : P (run.foldl step s)) :
    ∃ earlier a later, run = earlier ++ a :: later ∧ ¬ P (earlier.foldl step s) ∧
      ∀ lately, lately <+: later → P ((earlier ++ a :: lately).foldl step s) := by
  induction run using List.reverseRecOn with
  | nil => exact absurd hafter hbefore
  | append_singleton run b ih =>
    by_cases hthere : P (run.foldl step s)
    · obtain ⟨earlier, a, later, rfl, habsent, hstays⟩ := ih hthere
      refine ⟨earlier, a, later ++ [b], by simp, habsent, fun lately hlately => ?_⟩
      -- on a prefix of what came later it stayed, by induction or by assumption
      rcases List.prefix_concat_iff.1 hlately with rfl | hprefix
      · rwa [← List.cons_append, ← List.append_assoc]
      · exact hstays lately hprefix
    · refine ⟨run, b, [], rfl, hthere, fun lately hlately => ?_⟩
      obtain rfl := List.prefix_nil.1 hlately
      exact hafter

namespace Registry

variable {κ : Type}

/-- What is done to a registry. -/
inductive Action where
  | apply (e : Event)
  | reconcile (serials : List String)
  | clear
  deriving DecidableEq, Repr

/-- What an action is to the device with a serial, if it concerns that device. -/
def Action.about (x : String) : Action → Option Event
  | .apply e => if e.serial = x then some e else none
  | .reconcile serials => some (if x ∈ serials then .added x else .removed x)
  | .clear => some (.removed x)

/-- The events about one device that actions are, in their order. -/
def eventsAbout (x : String) (actions : List Action) : List Event :=
  actions.filterMap (Action.about x)

/-- The notifications about one device, among those that are queued. -/
def notificationsOn (r : Registry κ) (x : String) : List Notification :=
  r.notifications.filter (·.serial = x)

theorem Action.serial_of_about {x : String} {a : Action} {e : Event} (h : a.about x = some e) :
    e.serial = x := by
  cases a with
  | apply e' =>
    simp only [about, Option.ite_none_right_eq_some, Option.some.injEq] at h
    obtain ⟨hserial, rfl⟩ := h
    exact hserial
  | reconcile serials =>
    obtain rfl := Option.some.inj h
    split <;> rfl
  | clear =>
    obtain rfl := Option.some.inj h
    rfl

theorem eventsAbout_concat (x : String) (actions : List Action) (a : Action) :
    eventsAbout x (actions ++ [a]) = eventsAbout x actions ++ (a.about x).toList := by
  rw [eventsAbout, List.filterMap_append, List.filterMap_cons]
  cases a.about x <;> rfl

theorem contains_iff_isSome {r : Registry κ} {x : String} :
    r.contains x ↔ (r.get? x).isSome := by
  rw [contains, get?, List.find?_isSome, List.any_eq_true]

variable [Capability κ]

/-- Does an action. -/
def Action.run (r : Registry κ) : Action → Registry κ
  | .apply e => (r.apply e).2
  | .reconcile serials => r.reconcile serials
  | .clear => r.clear

/-- The registry after actions in their order. -/
def runAll (r : Registry κ) (actions : List Action) : Registry κ :=
  actions.foldl Action.run r

theorem runAll_concat (r : Registry κ) (actions : List Action) (a : Action) :
    r.runAll (actions ++ [a]) = a.run (r.runAll actions) :=
  List.foldl_append

/-! ### One event -/

@[simp] theorem table_apply (r : Registry κ) (e : Event) : (r.apply e).2.table = r.table := by
  cases e with
  | added y => exact table_add r y
  | removed y =>
    simp only [Registry.apply, remove]
    split <;> rfl
  | changed y addr port value =>
    simp only [Registry.apply, change]
    split <;> rfl

/-- An event leaves the other devices alone. -/
theorem get?_apply_of_ne {r : Registry κ} {e : Event} {x : String} (h : e.serial ≠ x) :
    (r.apply e).2.get? x = r.get? x := by
  cases e with
  | added y => exact (get?_add r y x).trans (if_neg h)
  | removed y => exact (get?_remove r y x).trans (if_neg h)
  | changed y addr port value => exact (get?_change r y addr port value x).trans (if_neg h)

/-- An event tells about the device that it is about. -/
theorem serial_of_mem_tells {r : Registry κ} {e : Event} {n : Notification} (h : n ∈ r.tells e) :
    n.serial = e.serial := by
  cases e with
  | added y | removed y | changed y addr port value =>
    -- each branch tells nothing, or one notification with the serial of the event
    rw [tells] at h
    split at h
    all_goals simp at h
    subst h
    rfl

theorem filter_tells (r : Registry κ) (e : Event) (x : String) :
    (r.tells e).filter (·.serial = x) = if e.serial = x then r.tells e else [] := by
  split
  next hsame =>
    refine List.filter_eq_self.2 fun n hn => ?_
    rw [serial_of_mem_tells hn, hsame, decide_eq_true_eq]
  next hother =>
    refine List.filter_eq_nil_iff.2 fun n hn => ?_
    rwa [serial_of_mem_tells hn, decide_eq_true_eq]

theorem notificationsOn_apply (r : Registry κ) (e : Event) (x : String) :
    (r.apply e).2.notificationsOn x =
      r.notificationsOn x ++ if e.serial = x then r.tells e else [] := by
  rw [notificationsOn, notifications_apply, List.filter_append, filter_tells]
  rfl

/-! ### What a device can tell of its registry -/

/-- **The device `x` cannot tell two registries apart**: they make the same capabilities, the device
is the same in both, and the same has been told about it. -/
structure AlikeOn (x : String) (r r' : Registry κ) : Prop where
  table : r.table = r'.table
  device : r.get? x = r'.get? x
  told : r.notificationsOn x = r'.notificationsOn x

namespace AlikeOn

variable {x : String} {r r' r'' : Registry κ}

omit [Capability κ] in
theorem refl (x : String) (r : Registry κ) : AlikeOn x r r := ⟨rfl, rfl, rfl⟩

omit [Capability κ] in
theorem trans (h : AlikeOn x r r') (h' : AlikeOn x r' r'') : AlikeOn x r r'' :=
  ⟨h.table.trans h'.table, h.device.trans h'.device, h.told.trans h'.told⟩

/-- An event about `x` tells the same in both. -/
theorem tells_eq (h : AlikeOn x r r') {e : Event} (he : e.serial = x) : r.tells e = r'.tells e := by
  subst he
  -- whether the device is there shows in the device itself
  have hcontains : r.contains e.serial = r'.contains e.serial := by
    rw [Bool.eq_iff_iff, contains_iff_isSome, contains_iff_isSome, h.device]
  cases e with
  | added y => exact if_congr (Bool.eq_iff_iff.1 hcontains) rfl (by rw [h.table])
  | removed y | changed y addr port value => exact if_congr (Bool.eq_iff_iff.1 hcontains) rfl rfl

/-- and does the same to it. -/
theorem apply (h : AlikeOn x r r') {e : Event} (he : e.serial = x) :
    AlikeOn x (r.apply e).2 (r'.apply e).2 where
  table := by rw [table_apply, table_apply, h.table]
  device := by
    -- each event gives the device from the device and the table, and both are the same
    obtain ⟨htable, hdevice, -⟩ := h
    cases e with
    | added y =>
      show (r.add y).2.get? x = (r'.add y).2.get? x
      rw [get?_add, get?_add, hdevice, htable]
    | removed y =>
      show (r.remove y).2.get? x = (r'.remove y).2.get? x
      rw [get?_remove, get?_remove, hdevice]
    | changed y addr port value =>
      show (r.change y addr port value).2.get? x = (r'.change y addr port value).2.get? x
      rw [get?_change, get?_change, hdevice]
  told := by rw [notificationsOn_apply, notificationsOn_apply, h.told, h.tells_eq he]

theorem applyAll (h : AlikeOn x r r') {events : List Event} (hevents : ∀ e ∈ events, e.serial = x) :
    AlikeOn x (r.applyAll events) (r'.applyAll events) := by
  induction events generalizing r r' with
  | nil => exact h
  | cons e events ih =>
    obtain ⟨he, hothers⟩ := List.forall_mem_cons.1 hevents
    exact ih (h.apply he) hothers

/-- An event about another device does not show. -/
theorem of_other (r : Registry κ) {e : Event} (he : e.serial ≠ x) : AlikeOn x (r.apply e).2 r where
  table := table_apply r e
  device := get?_apply_of_ne he
  told := by rw [notificationsOn_apply, if_neg he, List.append_nil]

end AlikeOn

/-! ### One action -/

theorem table_applyAll (r : Registry κ) (events : List Event) :
    (r.applyAll events).table = r.table := by
  induction events generalizing r with
  | nil => rfl
  | cons e events ih => exact (ih (r.apply e).2).trans (table_apply r e)

/-- What is told about `x` of one event for each serial of a list, if there is nothing to tell when
the event takes place again: what is told of the first one about `x`. -/
theorem filter_told_map {make : String → Event} (hserial : ∀ y, (make y).serial = y)
    (hsettled : ∀ (r : Registry κ) y, (r.apply (make y)).2.tells (make y) = [])
    (r : Registry κ) (serials : List String) (x : String) :
    (r.told (serials.map make)).filter (·.serial = x) =
      if x ∈ serials then r.tells (make x) else [] := by
  induction serials generalizing r with
  | nil => rfl
  | cons y serials ih =>
    rw [List.map_cons, told, List.filter_append, filter_tells, hserial, ih]
    by_cases hsame : y = x
    -- all later events about `x` find what the first one has made, and have nothing to tell
    · subst hsame
      rw [if_pos rfl, hsettled, ite_self, List.append_nil, if_pos List.mem_cons_self]
    · -- another device does not matter to `x`
      have hother : (make y).serial ≠ x := by rwa [hserial]
      rw [if_neg hsame, List.nil_append, (AlikeOn.of_other r hother).tells_eq (hserial x)]
      simp only [List.mem_cons, Ne.symm hsame, false_or]

theorem filter_told_added (r : Registry κ) (serials : List String) (x : String) :
    (r.told (serials.map .added)).filter (·.serial = x) =
      if x ∈ serials then r.tells (.added x) else [] := by
  refine filter_told_map (fun _ => rfl) (fun r y => ?_) r serials x
  exact if_pos (contains_add.2 (.inl rfl))

theorem filter_told_removed (r : Registry κ) (serials : List String) (x : String) :
    (r.told (serials.map .removed)).filter (·.serial = x) =
      if x ∈ serials then r.tells (.removed x) else [] := by
  refine filter_told_map (fun _ => rfl) (fun r y => ?_) r serials x
  exact if_neg fun hy => (contains_remove.1 hy).2 rfl

theorem notificationsOn_applyAll (r : Registry κ) (events : List Event) (x : String) :
    (r.applyAll events).notificationsOn x =
      r.notificationsOn x ++ (r.told events).filter (·.serial = x) := by
  rw [notificationsOn, notifications_applyAll, List.filter_append]
  rfl

/-- A list is, for `x`, its appearance or its disappearance. -/
theorem alikeOn_reconcile (r : Registry κ) (serials : List String) (x : String) :
    AlikeOn x (r.reconcile serials)
      (r.apply (if x ∈ serials then .added x else .removed x)).2 := by
  have hlisting : r.listing serials =
      serials.map .added ++ (r.unlisted serials).map .removed := rfl
  refine ⟨?_, ?_, ?_⟩
  · rw [reconcile_eq_applyAll, table_applyAll, table_apply]
  -- the device: a listed one is kept or made, and any other one is gone
  · by_cases hlisted : x ∈ serials
    · rw [if_pos hlisted, get?_reconcile hlisted]
      exact ((get?_add r x x).trans (if_pos rfl)).symm
    · have habsent : ¬ (r.reconcile serials).contains x := mt contains_reconcile.1 hlisted
      rw [if_neg hlisted, get?_eq_none_of_absent habsent]
      exact ((get?_remove r x x).trans (if_pos rfl)).symm
  -- what is told: of the additions and removals in the list only those of `x` are left
  · rw [reconcile_eq_applyAll, notificationsOn_applyAll, notificationsOn_apply, hlisting,
      told_append, List.filter_append, filter_told_added, filter_told_removed]
    by_cases hlisted : x ∈ serials
    · have hkept : x ∉ r.unlisted serials := fun hx => (mem_unlisted_iff.1 hx).2 hlisted
      rw [if_pos hlisted, if_pos hlisted, if_neg hkept, List.append_nil]
      exact congrArg _ (if_pos rfl).symm
    · -- the devices that the list adds are others, so `x` is removed if it was attached
      have hgrown : (r.addAll serials).contains x ↔ r.contains x := by
        rw [contains_addAll]
        exact or_iff_right hlisted
      have htells : (r.addAll serials).tells (.removed x) = r.tells (.removed x) :=
        if_congr hgrown rfl rfl
      rw [if_neg hlisted, if_neg hlisted, List.nil_append, ← addAll_eq_applyAll, htells]
      refine congrArg _ (Eq.trans ?_ (if_pos rfl).symm)
      split
      · rfl
      next hnot =>
        have habsent : ¬ r.contains x := fun hx => hnot (mem_unlisted_iff.2 ⟨hx, hlisted⟩)
        exact (if_neg habsent).symm

/-- Clearing is, for `x`, its disappearance. -/
theorem alikeOn_clear (r : Registry κ) (x : String) :
    AlikeOn x r.clear (r.apply (.removed x)).2 := by
  have habsent : ¬ r.clear.contains x := by
    rw [contains, devices_clear]
    exact Bool.false_ne_true
  refine ⟨?_, ?_, ?_⟩
  · rw [clear_eq_applyAll, table_applyAll, table_apply]
  · rw [get?_eq_none_of_absent habsent]
    exact ((get?_remove r x x).trans (if_pos rfl)).symm
  · rw [clear_eq_applyAll, notificationsOn_applyAll, notificationsOn_apply, clearing,
      filter_told_removed]
    -- all devices are removed, and a removal of `x` tells something only if it was there
    refine congrArg _ (Eq.trans ?_ (if_pos rfl).symm)
    split
    · rfl
    next hnot => exact (if_neg fun hx => hnot (mem_serials_iff.2 hx)).symm

/-- **An action is, for `x`, the event about `x` that it stands for**, if it stands for one. -/
theorem alikeOn_run (r : Registry κ) (a : Action) (x : String) :
    AlikeOn x (a.run r) (r.applyAll (a.about x).toList) := by
  cases a with
  | apply e =>
    rw [Action.about]
    split
    · exact .refl x _
    next hother => exact .of_other r hother
  | reconcile serials => exact alikeOn_reconcile r serials x
  | clear => exact alikeOn_clear r x

/-- **A run is, for `x`, the events about `x` in it.** -/
theorem alikeOn_runAll (r : Registry κ) (actions : List Action) (x : String) :
    AlikeOn x (r.runAll actions) (r.applyAll (eventsAbout x actions)) := by
  induction actions using List.reverseRecOn with
  | nil => exact .refl x r
  | append_singleton actions a ih =>
    have habout : ∀ e ∈ (a.about x).toList, e.serial = x := fun e he =>
      Action.serial_of_about (Option.mem_toList.1 he)
    rw [runAll_concat, eventsAbout_concat, applyAll_append]
    -- the step may be taken from either registry, and the events about `x` keep them alike
    exact (alikeOn_run (r.runAll actions) a x).trans (ih.applyAll habout)

/-! ### One device -/

/-- What an action makes of a device. -/
theorem get?_run (r : Registry κ) (a : Action) (x : String) : (a.run r).get? x =
    match a.about x with
    | none => r.get? x
    | some (.added _) => some ((r.get? x).getD ⟨x, r.table.instantiate? x⟩)
    | some (.removed _) => none
    | some (.changed _ addr port value) => (r.get? x).map (·.registerChanged addr port value) := by
  rw [(alikeOn_run r a x).device]
  cases habout : a.about x with
  | none => rfl
  | some e =>
    -- an event that the action is to `x` is about `x`
    obtain rfl := Action.serial_of_about habout
    cases e with
    | added y => exact (get?_add r y y).trans (if_pos rfl)
    | removed y => exact (get?_remove r y y).trans (if_pos rfl)
    | changed y addr port value => exact (get?_change r y addr port value y).trans (if_pos rfl)

/-- The register changes of one device among actions. -/
def changesOf (x : String) (actions : List Action) : List Change :=
  (eventsAbout x actions).filterMap Event.change?

theorem changesOf_concat (x : String) (actions : List Action) (a : Action) :
    changesOf x (actions ++ [a]) =
      changesOf x actions ++ (a.about x).toList.filterMap Event.change? := by
  rw [changesOf, eventsAbout_concat, List.filterMap_append]
  rfl

theorem table_runAll (r : Registry κ) (actions : List Action) :
    (r.runAll actions).table = r.table := by
  induction actions using List.reverseRecOn with
  | nil => rfl
  | append_singleton actions a ih =>
    -- an action keeps the table, which can be seen through any device
    rw [runAll_concat, (alikeOn_run _ a "").table, table_applyAll, ih]

/-- A device that was there and still is has seen the change that the action is to it, if it is
one. -/
theorem get?_run_of_stays {r : Registry κ} {a : Action} {x : String} {made : Option κ}
    {changes : List Change} (hdevice : r.get? x = some ⟨x, made.map (Capability.seeing changes)⟩)
    (hstays : (a.run r).contains x) : (a.run r).get? x =
      some ⟨x, made.map
        (Capability.seeing (changes ++ (a.about x).toList.filterMap Event.change?))⟩ := by
  have hrun := get?_run r a x
  rw [contains_iff_isSome, hrun] at hstays
  rw [hrun, hdevice]
  cases habout : a.about x with
  | none => simp only [Option.toList_none, List.filterMap_nil, List.append_nil]
  | some e =>
    cases e with
    | added y =>
      -- to appear again is nothing to a device that is there
      show some _ = some (Device.mk x (Option.map (Capability.seeing (_ ++ [])) _))
      rw [List.append_nil]
      rfl
    | removed y =>
      -- then it would not be there any more
      simp [habout] at hstays
    | changed y addr port value =>
      exact congrArg some (registerChanged_seeing x made changes addr port value)

/-- A device that was not there and then is has just been made. -/
theorem get?_run_of_appears {r : Registry κ} {a : Action} {x : String} (hnone : ¬ r.contains x)
    (hx : (a.run r).contains x) : (a.run r).get? x = some ⟨x, r.table.instantiate? x⟩ := by
  have hrun := get?_run r a x
  rw [get?_eq_none_of_absent hnone] at hrun
  rw [contains_iff_isSome, hrun] at hx
  rw [hrun]
  -- nothing but to appear makes a device
  cases habout : a.about x with
  | none => simp [habout] at hx
  | some e =>
    cases e with
    | added y => rfl
    | removed y | changed y addr port value => simp [habout] at hx

/-- A device that stays through a run has seen the register changes in it. -/
theorem get?_runAll_of_stays {r : Registry κ} {x : String} {made : Option κ}
    (hdevice : r.get? x = some ⟨x, made⟩) {actions : List Action}
    (hstays : ∀ lately, lately <+: actions → (r.runAll lately).contains x) :
    (r.runAll actions).get? x = some ⟨x, made.map (Capability.seeing (changesOf x actions))⟩ := by
  induction actions using List.reverseRecOn with
  | nil => exact hdevice.trans (congrArg (fun c => some (Device.mk x c)) Option.map_id_apply.symm)
  | append_singleton actions a ih =>
    have hbefore := ih fun lately hlately => hstays lately (hlately.trans (List.prefix_append _ _))
    have hlast := hstays _ List.prefix_rfl
    rw [runAll_concat] at hlast ⊢
    rw [changesOf_concat]
    exact get?_run_of_stays hbefore hlast

/-- **A device that appeared in a run is the one of its last appearance.** There is an action with
which it appeared and behind which it stayed. Its capability is the one that was made for its serial
then, and has seen exactly the register changes since. -/
theorem get?_runAll_of_contains {r : Registry κ} {x : String} (hnone : ¬ r.contains x)
    {actions : List Action} (hx : (r.runAll actions).contains x) :
    ∃ earlier creating later, actions = earlier ++ creating :: later ∧
      ¬ (r.runAll earlier).contains x ∧
      (∀ lately, lately <+: later →
        (r.runAll (earlier ++ creating :: lately)).contains x) ∧
      (r.runAll actions).get? x =
        some ⟨x, (r.table.instantiate? x).map (Capability.seeing (changesOf x later))⟩ := by
  obtain ⟨earlier, creating, later, rfl, habsent, hstays⟩ :=
    exists_last_rise Action.run (fun r => r.contains x) hnone hx
  have hsplit : ∀ lately, r.runAll (earlier ++ creating :: lately) =
      (creating.run (r.runAll earlier)).runAll lately := fun _ => List.foldl_append
  have hthere : ∀ lately, lately <+: later →
      ((creating.run (r.runAll earlier)).runAll lately).contains x := fun lately hlately =>
    hsplit lately ▸ hstays lately hlately
  have hmade := get?_run_of_appears (r := r.runAll earlier) habsent (hthere [] List.nil_prefix)
  -- no action has changed the table since the beginning
  rw [table_runAll] at hmade
  refine ⟨earlier, creating, later, rfl, habsent, hstays, ?_⟩
  rw [hsplit]
  exact get?_runAll_of_stays hmade hthere

/-- **A device sees its own history, and nothing else.** For a registry that was made empty, with one
table or the other, after any actions:

* a device that is there is the one of its last appearance. Its capability is the one that was made
  for its serial then, and has seen exactly the register changes since, in their order;
* actions that are the same events to `x` leave the same device `x` behind and the same notifications
  about it, whatever they are to others. It does not matter to `x` whether it is removed, not listed
  or cleared;
* a recorder that has seen changes holds these changes;
* an analog output board that has seen changes knows the status that the last of those of the status
  register reports, and no status if there is none. -/
theorem isolated (own : Option (CapabilityTable κ)) (shared : CapabilityTable κ)
    (actions : List Action) (x : String) :
    let new : Registry κ := { own := own, shared := shared }
    let r := new.runAll actions
    (r.contains x → ∃ earlier creating later, actions = earlier ++ creating :: later ∧
      ¬ (new.runAll earlier).contains x ∧
      (∀ lately, lately <+: later → (new.runAll (earlier ++ creating :: lately)).contains x) ∧
      r.get? x =
        some ⟨x, (new.table.instantiate? x).map (Capability.seeing (changesOf x later))⟩) ∧
    (∀ actions' : List Action, eventsAbout x actions' = eventsAbout x actions →
      let r' := new.runAll actions'
      r'.get? x = r.get? x ∧ r'.notificationsOn x = r.notificationsOn x) ∧
    (∀ changes : List Change, Capability.seeing changes (.recorder []) = Known.recorder changes) ∧
    ∀ changes : List Change, Capability.seeing changes (.faout {}) =
      Known.faout ⟨Change.lastStatus? changes⟩ := by
  intro new r
  refine ⟨fun hx => ?_, fun actions' hsame => ?_, fun changes => ?_, fun changes => ?_⟩
  -- a registry that was made empty holds no device, so `x` has appeared since
  · have hempty : ¬ new.contains x := Bool.false_ne_true
    exact get?_runAll_of_contains hempty hx
  -- both runs are, for `x`, the same events
  · have hr := alikeOn_runAll new actions x
    have hr' := alikeOn_runAll new actions' x
    rw [hsame] at hr'
    exact ⟨hr'.device.trans hr.device.symm, hr'.told.trans hr.told.symm⟩
  · exact seeing_recorder [] changes
  · rw [seeing_faout, Option.or_none]

/-- A board reports a status and is left out of a list; it comes again and reports other registers and
another status. -/
example :
    let r : Registry Known := { own := some (CapabilityTable.register {} "FA" fun _ => .faout {}) }
    let report addr port value : Action := .apply (.changed "FA-1" addr port value)
    (r.runAll [.reconcile ["FA-1", "X"], report 0 1 7, .reconcile ["X"], .apply (.added "FA-1"),
      report 0 1 0x1234, report 0 2 9, .apply (.removed "X")]).get? "FA-1" =
      some ⟨"FA-1", some (.faout ⟨some (.ofWord 0x1234)⟩)⟩ := by
  cbv

end Registry

end BoardLink
