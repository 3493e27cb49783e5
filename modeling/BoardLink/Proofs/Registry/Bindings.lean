import BoardLink.Proofs.Capability.History
import BoardLink.Proofs.Registry.Isolation

/-!
# Capabilities are chosen when devices appear

The table that all registries of a process share is changed by anybody at any time: between two
operations of a registry, and also while one is going on, as each device that is made looks into the
table anew. So the operations are taken apart into what happens between two looks
(`Registry.Happening`): the devices of a list appear one after the other, with registrations in
between, and then the others go (`Registry.reconcile_eq_afterAll`).

A registration changes the table and no device, and what happens to a device changes no table. The
capability of a device is therefore the one that was made from the table as it stood when the device
appeared last.

* `Registry.get?_run_of_remains`, `Registry.get?_run_of_new` — one happening;
* `Registry.table_afterAll` — the table after a run, by the registrations in it alone;
* `Registry.bound_at_creation` — the capability of each device, and that the shared table does not
  matter to a registry with a table of its own.
-/

namespace BoardLink

open BoardLink.Wire

variable {κ : Type}

/-- The table after registrations in their order. -/
def CapabilityTable.registerAll (t : CapabilityTable κ) (registrations : List (String × (String → κ))) :
    CapabilityTable κ :=
  registrations.foldl (fun t e => t.register e.1 e.2) t

namespace Registry

/-- Drops the devices that are not listed, in ascending order. -/
def retain (r : Registry κ) (serials : List String) : Registry κ :=
  r.removeAll (sortSerials ((r.devices.map (·.serial)).filter fun s => !serials.contains s))

/-- What happens to a registry, and to the table that it shares with others. -/
inductive Happening (κ : Type) where
  /-- Somebody registers a capability in the shared table. -/
  | register (lead : String) (make : String → κ)
  | act (a : Action)
  /-- The devices that are not listed go, which is how a list ends that was taken over. -/
  | retain (serials : List String)
  /-- The application changes the state of a device's capability. -/
  | adjust (serial : String) (f : κ → κ)
  /-- The application takes the notifications. -/
  | take

namespace Happening

/-- The registration that a happening is, if it is one. -/
def registration? : Happening κ → Option (String × (String → κ))
  | .register lead make => some (lead, make)
  | _ => none

/-- Whether a happening is one of the registry itself, and no registration. -/
def ofRegistry (h : Happening κ) : Bool := h.registration?.isNone

variable [Capability κ]

/-- The registry after a happening. -/
def run (r : Registry κ) : Happening κ → Registry κ
  | .register lead make => r.registerShared lead make
  | .act a => a.run r
  | .retain serials => r.retain serials
  | .adjust serial f => r.modifyDevice serial fun d => { d with capability := d.capability.map f }
  | .take => r.takeNotifications.2

/-- What a happening does to the capability of the device `x`, if there is one. -/
def marks (x : String) : Happening κ → κ → κ
  | .act a, c => Capability.seeing ((a.about x).toList.filterMap Event.change?) c
  | .adjust serial f, c => if serial = x then f c else c
  | _, c => c

end Happening

/-- The registrations in a run. -/
def registrations (run : List (Happening κ)) : List (String × (String → κ)) :=
  run.filterMap Happening.registration?

/-- The registry with another shared table. -/
def withShared (r : Registry κ) (shared : CapabilityTable κ) : Registry κ := { r with shared }

variable [Capability κ]

/-- The registry after a run. -/
def afterAll (r : Registry κ) (run : List (Happening κ)) : Registry κ :=
  run.foldl Happening.run r

/-- The capability `c` of the device `x` after a run. -/
def lived (x : String) (run : List (Happening κ)) (c : κ) : κ :=
  run.foldl (fun c h => h.marks x c) c

theorem afterAll_concat (r : Registry κ) (run : List (Happening κ)) (h : Happening κ) :
    r.afterAll (run ++ [h]) = h.run (r.afterAll run) :=
  List.foldl_append

omit [Capability κ] in
theorem registrations_concat (run : List (Happening κ)) (h : Happening κ) :
    registrations (run ++ [h]) = registrations run ++ h.registration?.toList := by
  rw [registrations, List.filterMap_append, List.filterMap_cons]
  cases h.registration? <;> rfl

/-- **To take over a list is to let its devices appear, one after the other, and to drop the
others.** -/
theorem reconcile_eq_afterAll (r : Registry κ) (serials : List String) :
    r.reconcile serials =
      r.afterAll (serials.map (fun x => .act (.apply (.added x))) ++ [.retain serials]) := by
  have hgrown : r.addAll serials = r.afterAll (serials.map fun x => .act (.apply (.added x))) := by
    -- the devices appear by events, which the registry applies in the same order
    rw [afterAll, List.foldl_map]
    rfl
  rw [afterAll_concat, ← hgrown]
  rfl

/-! ### One device -/

omit [Capability κ] in
theorem get?_retain (r : Registry κ) (serials : List String) (x : String) :
    (r.retain serials).get? x = if x ∈ serials then r.get? x else none := by
  -- the devices that go are those that are there and not listed
  have hgone : x ∈ sortSerials ((r.devices.map (·.serial)).filter fun s => !serials.contains s) ↔
      r.contains x ∧ x ∉ serials := by
    rw [sortSerials, List.mem_mergeSort, List.mem_filter, List.mem_map, contains_iff]
    simp
  rw [retain, get?_removeAll]
  by_cases hlisted : x ∈ serials
  · rw [if_pos hlisted, if_neg fun hx => (hgone.1 hx).2 hlisted]
  · rw [if_neg hlisted]
    split
    · rfl
    next hkept => exact get?_eq_none_of_absent fun hx => hkept (hgone.2 ⟨hx, hlisted⟩)

theorem get?_adjust (r : Registry κ) (serial : String) (f : κ → κ) (x : String) :
    ((Happening.adjust serial f).run r).get? x =
      if serial = x then (r.get? x).map fun d => { d with capability := d.capability.map f }
      else r.get? x :=
  get?_modifyDevice r serial (f := fun d => { d with capability := d.capability.map f })
    (fun _ => rfl) x

/-- A device that was there and still is has seen what happened to it. -/
theorem get?_run_of_remains {r : Registry κ} {h : Happening κ} {x : String} {capability : Option κ}
    (hdevice : r.get? x = some ⟨x, capability⟩) (hremains : (h.run r).contains x) :
    (h.run r).get? x = some ⟨x, capability.map (h.marks x)⟩ := by
  -- what does not concern the device is a sequence of no changes
  have hsame : some (Device.mk x capability) = some ⟨x, capability.map (Capability.seeing [])⟩ :=
    congrArg (fun c => some (Device.mk x c)) Option.map_id_apply.symm
  cases h with
  | register lead make => exact hdevice.trans hsame
  | act a => exact get?_run_of_stays (hdevice.trans hsame) hremains
  | retain serials =>
    -- a device that is not listed would be gone, against `hremains`
    have hrun := get?_retain r serials x
    have hlisted : x ∈ serials := by
      by_contra hnot
      rw [if_neg hnot] at hrun
      have hsome := contains_iff_isSome.1 hremains
      rw [show (Happening.retain serials).run r = r.retain serials from rfl, hrun] at hsome
      cases hsome
    rw [if_pos hlisted, hdevice] at hrun
    exact hrun.trans hsame
  | adjust serial f =>
    -- the application changes one device, and only that one
    have hrun := get?_adjust r serial f x
    rw [hdevice] at hrun
    refine hrun.trans ?_
    show _ = some (Device.mk x (capability.map fun c => if serial = x then f c else c))
    split
    · rfl
    · exact hsame
  | take => exact hdevice.trans hsame

/-- A device that was not there and then is has just been made, from the table as it stands. -/
theorem get?_run_of_new {r : Registry κ} {h : Happening κ} {x : String} (hnone : ¬ r.contains x)
    (hx : (h.run r).contains x) : (h.run r).get? x = some ⟨x, r.table.instantiate? x⟩ := by
  have habsent := get?_eq_none_of_absent hnone
  rw [contains_iff_isSome] at hx
  -- only events make devices; any other happening leaves an absent device absent
  cases h with
  | act a => exact get?_run_of_appears hnone (contains_iff_isSome.2 hx)
  | register lead make | take =>
    -- no device is made
    exact absurd (contains_iff_isSome.2 hx) hnone
  | retain serials =>
    have hrun : ((Happening.retain serials).run r).get? x = none := by
      refine (get?_retain r serials x).trans ?_
      rw [habsent, ite_self]
    rw [hrun] at hx
    cases hx
  | adjust serial f =>
    have hrun : ((Happening.adjust serial f).run r).get? x = none := by
      rw [get?_adjust, habsent, Option.map_none, ite_self]
    rw [hrun] at hx
    cases hx

/-- A device that stays through a run has seen what happened to it, in its order. -/
theorem get?_afterAll_of_remains {r : Registry κ} {x : String} {capability : Option κ}
    (hdevice : r.get? x = some ⟨x, capability⟩) {run : List (Happening κ)}
    (hremains : ∀ lately, lately <+: run → (r.afterAll lately).contains x) :
    (r.afterAll run).get? x = some ⟨x, capability.map (lived x run)⟩ := by
  induction run using List.reverseRecOn with
  | nil => exact hdevice.trans (congrArg (fun c => some (Device.mk x c)) Option.map_id_apply.symm)
  | append_singleton run h ih =>
    -- it was there at each step before, so that it has seen the run up to the last happening
    have hbefore := ih fun lately hlately => hremains lately (hlately.trans (List.prefix_append _ _))
    have hlast := hremains _ List.prefix_rfl
    rw [afterAll_concat] at hlast ⊢
    have hlived : lived x (run ++ [h]) = h.marks x ∘ lived x run := by
      funext c
      exact List.foldl_append
    rw [get?_run_of_remains hbefore hlast, Option.map_map, hlived]

/-! ### The tables -/

/-- An event is nothing to the tables. -/
theorem tables_applyAll (r : Registry κ) (events : List Event) :
    (r.applyAll events).own = r.own ∧ (r.applyAll events).shared = r.shared := by
  induction events generalizing r with
  | nil => exact ⟨rfl, rfl⟩
  | cons e events ih =>
    -- no branch of an event touches a table
    have hfirst : (r.apply e).2.own = r.own ∧ (r.apply e).2.shared = r.shared := by
      cases e <;> simp only [Registry.apply, add, remove, change] <;> split <;> exact ⟨rfl, rfl⟩
    obtain ⟨hown, hshared⟩ := ih (r.apply e).2
    exact ⟨hown.trans hfirst.1, hshared.trans hfirst.2⟩

/-- What happens to devices is a sequence of events. -/
theorem Action.exists_applyAll (r : Registry κ) (a : Action) :
    ∃ events, a.run r = r.applyAll events := by
  cases a with
  | apply e => exact ⟨[e], rfl⟩
  | reconcile serials => exact ⟨_, reconcile_eq_applyAll r serials⟩
  | clear => exact ⟨_, clear_eq_applyAll r⟩

/-- A registry keeps its choice of a table, -/
theorem own_run (r : Registry κ) (h : Happening κ) : (h.run r).own = r.own := by
  -- registering changes the shared table, and the registry only holds its own
  cases h with
  | register lead make | adjust serial f | take => rfl
  | act a =>
    obtain ⟨events, hevents⟩ := a.exists_applyAll r
    exact (congrArg own hevents).trans (tables_applyAll r events).1
  | retain serials => exact (congrArg own (removeAll_eq_applyAll r _)).trans (tables_applyAll r _).1

/-- and the shared table is changed by registrations alone. -/
theorem shared_run (r : Registry κ) (h : Happening κ) :
    (h.run r).shared = r.shared.registerAll h.registration?.toList := by
  cases h with
  | register lead make | adjust serial f | take => rfl
  | act a =>
    obtain ⟨events, hevents⟩ := a.exists_applyAll r
    exact (congrArg shared hevents).trans (tables_applyAll r events).2
  | retain serials =>
    exact (congrArg shared (removeAll_eq_applyAll r _)).trans (tables_applyAll r _).2

theorem own_afterAll (r : Registry κ) (run : List (Happening κ)) : (r.afterAll run).own = r.own := by
  induction run using List.reverseRecOn with
  | nil => rfl
  | append_singleton run h ih => rw [afterAll_concat, own_run, ih]

/-- **The table after a run** is the registry's own one if it has one, else what the registrations have
made of the shared one. -/
theorem table_afterAll (r : Registry κ) (run : List (Happening κ)) :
    (r.afterAll run).table = r.own.getD (r.shared.registerAll (registrations run)) := by
  have hshared : (r.afterAll run).shared = r.shared.registerAll (registrations run) := by
    -- registrations add up in their order, and what is no registration adds nothing
    induction run using List.reverseRecOn with
    | nil => rfl
    | append_singleton run h ih =>
      rw [afterAll_concat, shared_run, ih, registrations_concat]
      exact List.foldl_append.symm
  rw [table, own_afterAll, hshared]

/-! ### A table of one's own -/

theorem apply_withShared {r : Registry κ} (hown : r.own.isSome) (shared : CapabilityTable κ)
    (e : Event) : ((r.withShared shared).apply e).2 = (r.apply e).2.withShared shared := by
  -- the table that devices are made from is the registry's own one on both sides
  have htable : (r.withShared shared).table = r.table := by
    obtain ⟨table, hsome⟩ := Option.isSome_iff_exists.1 hown
    show r.own.getD shared = r.own.getD r.shared
    rw [hsome]
    rfl
  have hcontains : ∀ x, (r.withShared shared).contains x = r.contains x := fun _ => rfl
  cases e <;> simp only [Registry.apply, add, remove, change, hcontains, htable] <;> split <;> rfl

theorem applyAll_withShared {r : Registry κ} (hown : r.own.isSome) (shared : CapabilityTable κ)
    (events : List Event) :
    (r.withShared shared).applyAll events = (r.applyAll events).withShared shared := by
  induction events generalizing r with
  | nil => rfl
  | cons e events ih =>
    -- an event keeps the table of one's own, which the rest of the run relies on
    have hkept : (r.apply e).2.own.isSome :=
      (congrArg Option.isSome (tables_applyAll r [e]).1).trans hown
    show ((r.withShared shared).apply e).2.applyAll events = _
    rw [apply_withShared hown, ih hkept]
    rfl

/-- A registry with a table of its own does the same whatever the shared table is. -/
theorem run_withShared {r : Registry κ} (hown : r.own.isSome) (shared : CapabilityTable κ)
    {h : Happening κ} (hh : h.ofRegistry) :
    h.run (r.withShared shared) = (h.run r).withShared shared := by
  cases h with
  | register lead make => cases hh
  | adjust serial f | take => rfl
  | retain serials =>
    -- all that the other happenings do are events, and these do not see the shared table
    show (r.withShared shared).removeAll _ = _
    rw [removeAll_eq_applyAll, applyAll_withShared hown, ← removeAll_eq_applyAll]
    rfl
  | act a =>
    cases a with
    | apply e => exact apply_withShared hown shared e
    | reconcile serials =>
      -- the devices that go are found among the same ones
      have hgrown : (r.withShared shared).addAll serials = (r.addAll serials).withShared shared := by
        rw [addAll_eq_applyAll, applyAll_withShared hown, ← addAll_eq_applyAll]
      show (r.withShared shared).reconcile serials = (r.reconcile serials).withShared shared
      have hlisting : (r.withShared shared).listing serials = r.listing serials := by
        rw [listing, hgrown]
        rfl
      rw [reconcile_eq_applyAll, hlisting, applyAll_withShared hown, ← reconcile_eq_applyAll]
    | clear =>
      show (r.withShared shared).clear = r.clear.withShared shared
      rw [clear_eq_applyAll, clear_eq_applyAll r, ← applyAll_withShared hown]
      rfl

/-- **Registrations do not matter to a registry with a table of its own**, except that the shared table
is another one. -/
theorem exists_afterAll_withShared {r : Registry κ} (hown : r.own.isSome) (shared : CapabilityTable κ)
    (run : List (Happening κ)) : ∃ shared', (r.withShared shared).afterAll run =
      (r.afterAll (run.filter Happening.ofRegistry)).withShared shared' := by
  induction run using List.reverseRecOn with
  | nil => exact ⟨shared, rfl⟩
  | append_singleton run h ih =>
    obtain ⟨shared', hrun⟩ := ih
    have hkept : (r.afterAll (run.filter Happening.ofRegistry)).own.isSome := by
      rwa [own_afterAll]
    rw [afterAll_concat, hrun, List.filter_append, List.filter_singleton]
    -- a happening of the registry does the same on both sides, a registration changes the shared
    -- table
    cases hh : h.ofRegistry with
    | true => exact ⟨shared', by rw [cond_true, afterAll_concat, run_withShared hkept shared' hh]⟩
    | false =>
      obtain ⟨lead, make, rfl⟩ : ∃ lead make, h = .register lead make := by
        cases h with
        | register lead make => exact ⟨lead, make, rfl⟩
        | act a | retain serials | adjust serial f | take => cases hh
      rw [cond_false, List.append_nil]
      exact ⟨shared'.register lead make, rfl⟩

/-- **A device keeps the capability that it was given when it appeared.** For a registry that was made
empty, after any run of operations and of registrations in the shared table:

* the capability of a device that is there was made when it appeared last, from the table as it stood
  then, which is the registry's own one, or what the registrations up to then had made of the shared
  one. It has seen what happened to it since, and registrations are not among that;
* a registration changes no device;
* a device that appears, for the first time or again, is looked up in the table as it stands;
* if the registry has a table of its own, then all but the shared table is the same whatever is
  registered, and whatever the shared table was;
* a list that is taken over is a run itself, so the first points hold also of registrations that come
  while it is. -/
theorem bound_at_creation (own : Option (CapabilityTable κ)) (shared : CapabilityTable κ)
    (run : List (Happening κ)) (x : String) :
    let new : Registry κ := { own, shared }
    let r := new.afterAll run
    (r.contains x → ∃ earlier creating later, run = earlier ++ creating :: later ∧
      ¬ (new.afterAll earlier).contains x ∧
      (∀ lately, lately <+: later → (new.afterAll (earlier ++ creating :: lately)).contains x) ∧
      r.get? x = some ⟨x, ((own.getD (shared.registerAll (registrations earlier))).instantiate?
        x).map (lived x later)⟩) ∧
    (∀ lead make, ((Happening.register lead make).run r).devices = r.devices) ∧
    (∀ next : Happening κ, ¬ r.contains x → (next.run r).contains x → (next.run r).get? x =
      some ⟨x, (own.getD (shared.registerAll (registrations run))).instantiate? x⟩) ∧
    (∀ table, own = some table → ∀ shared' run',
      run'.filter Happening.ofRegistry = run.filter Happening.ofRegistry →
      let new' : Registry κ := { own, shared := shared' }
      let r' := new'.afterAll run'
      r' = r.withShared r'.shared) ∧
    ∀ serials, r.reconcile serials =
      r.afterAll (serials.map (fun y => .act (.apply (.added y))) ++ [.retain serials]) := by
  intro new r
  refine ⟨fun hx => ?_, fun lead make => rfl, fun next hnone hx => ?_, fun table hown shared' run'
    hsame => ?_, reconcile_eq_afterAll r⟩
  -- the device is there: take the last happening at which it appeared
  · have hempty : ¬ new.contains x := Bool.false_ne_true
    obtain ⟨earlier, creating, later, rfl, habsent, hstays⟩ :=
      exists_last_rise Happening.run (fun r => r.contains x) hempty hx
    have hsplit : ∀ lately, new.afterAll (earlier ++ creating :: lately) =
        (creating.run (new.afterAll earlier)).afterAll lately := fun _ => List.foldl_append
    have hthere : ∀ lately, lately <+: later →
        ((creating.run (new.afterAll earlier)).afterAll lately).contains x := fun lately hlately =>
      hsplit lately ▸ hstays lately hlately
    -- it was made then, from the table as the registrations up to then had left it
    have hmade := get?_run_of_new (r := new.afterAll earlier) habsent (hthere [] List.nil_prefix)
    rw [table_afterAll] at hmade
    refine ⟨earlier, creating, later, rfl, habsent, hstays, ?_⟩
    show (new.afterAll _).get? x = _
    rw [hsplit]
    exact get?_afterAll_of_remains hmade hthere
  -- a device that appears next is made from the table as it stands
  · rw [get?_run_of_new hnone hx, table_afterAll]
  -- a table of one's own: both runs come to the same run without registrations
  · have hsome : new.own.isSome := by
      show own.isSome
      rw [hown]
      rfl
    obtain ⟨left, hleft⟩ := exists_afterAll_withShared hsome shared run
    obtain ⟨right, hright⟩ := exists_afterAll_withShared hsome shared' run'
    intro new' r'
    have hr : r = (new.afterAll (run.filter Happening.ofRegistry)).withShared left := hleft
    have hr' : r' = (new.afterAll (run.filter Happening.ofRegistry)).withShared right :=
      hsame ▸ hright
    rw [hr, hr']
    rfl

/-- A board appears before its prefix is registered, and again behind that; it keeps what it has when
the prefix is registered anew. -/
example :
    let new : Registry Known := {}
    let run : List (Happening Known) := [.act (.apply (.added "FA-1")), .register "FA" .echo,
      .act (.reconcile ["FA-1", "FA-2"]), .act (.apply (.removed "FA-1")),
      .act (.reconcile ["FA-2", "FA-1"]), .register "FA" fun _ => .faout {}]
    let name x n := ((new.afterAll (run.take n)).get? x).map Device.capabilityName?
    name "FA-1" 3 = some none ∧ name "FA-2" 3 = some (some "echo:FA-2") ∧ name "FA-1" 4 = none ∧
      name "FA-1" 6 = some (some "echo:FA-1") := by
  cbv

end Registry

end BoardLink
