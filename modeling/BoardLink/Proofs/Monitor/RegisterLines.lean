import BoardLink.Proofs.Monitor.Tracking
import BoardLink.Proofs.Session.Violations

/-!
# The register changes behind the lines of a monitor

A register change that a session applies to a device is told once (`Registry.applied_eq`), and a
monitor prints a line for each notification that it is handed. So the changes that it prints are those
that were applied, in their order, but for two parts at the ends: what was applied while it connected
is discarded, and what is queued when its connection has ended is never taken.

* `Session.changes_of_failed_poll` — what is left in the queue then is what the last poll has received
  in front of a violation;
* `Monitor.registerLines_run` — the changes of a whole run.
-/

namespace BoardLink

open BoardLink.Wire

/-- The register change that a notification tells, if it tells one. -/
def Notification.change? : Notification → Option Event
  | .registerChanged serial addr port value => some (.changed serial addr port value)
  | .deviceAdded .. | .deviceRemoved .. => none

/-! ### Changes that are applied -/

namespace Registry

variable {κ : Type} [Capability κ]

/-- The register changes among events that are applied to a device, one after the other: those of a
device that is attached when the event arrives. -/
def applied (r : Registry κ) : List Event → List Event
  | [] => []
  | .changed serial addr port value :: events =>
    (if r.contains serial then [.changed serial addr port value] else []) ++
      (r.change serial addr port value).2.applied events
  | e :: events => (r.apply e).2.applied events

/-- **Each change that is applied is told once**, in order. -/
theorem applied_eq (r : Registry κ) (events : List Event) :
    r.applied events = (r.told events).filterMap Notification.change? := by
  induction events generalizing r with
  | nil => rfl
  | cons e events ih =>
    rw [told, List.filterMap_append, ← ih]
    -- only a change tells a change; a device that appears or disappears tells something else
    cases e with
    | changed serial addr port value =>
      rw [applied, tells]
      split <;> rfl
    | added serial =>
      have hother : (r.tells (.added serial)).filterMap Notification.change? = [] := by
        rw [tells]
        split <;> rfl
      rw [hother]
      rfl
    | removed serial =>
      have hother : (r.tells (.removed serial)).filterMap Notification.change? = [] := by
        rw [tells]
        split <;> rfl
      rw [hother]
      rfl

theorem applied_append (r : Registry κ) (events later : List Event) :
    r.applied (events ++ later) = r.applied events ++ (r.applyAll events).applied later := by
  rw [applied_eq, told_append, List.filterMap_append, ← applied_eq, ← applied_eq]

/-- No change is applied while all devices disappear. -/
theorem applied_clearing (r : Registry κ) : r.applied r.clearing = [] := by
  unfold clearing
  -- one removal after the other, and none of them is a change
  generalize r.serials = gone
  induction gone generalizing r with
  | nil => rfl
  | cons serial gone ih => exact ih (r.remove serial).2

theorem Follows.applied_eq {r r' : Registry κ} {events : List Event} {handed : List Notification}
    (h : Follows r events handed r') (later : List Event) :
    r'.applied later = (r.applyAll events).applied later := by
  rw [Registry.applied_eq, Registry.applied_eq, h.registry, told_withPending]

end Registry

/-! ### What a monitor does not take -/

namespace Session

variable {τ κ : Type} [Transport τ] [Capability κ]

/-- **What is left in the queue by a poll that fails**, if there was nothing in it: the changes that the
poll has received in front of a violation. -/
theorem changes_of_failed_poll {s last : Session τ κ} {e : SessionError}
    (hnone : s.registry.notifications = []) (h : pollEvents s = (.error e, last)) :
    let pieces := Operation.poll.pieces s
    let late := last.registry.notifications.filterMap Notification.change?
    late = s.registry.applied (eventsIn (s.inbox.packetsIn pieces)) ∧
      (late = [] ∨ ∃ fault, s.inbox.faultIn pieces = some fault ∧ e = .ofFault fault) := by
  intro pieces late
  cases hclosed : s.closed with
  | true =>
    -- the connection has ended before, and nothing is received
    have hpieces : pieces = [] := if_pos hclosed
    have hsame : last = s := by
      rw [pollEvents, ensureOpen_bind_of_closed hclosed] at h
      exact (Prod.mk.inj h).2.symm
    have hlate : late = [] := by
      show last.registry.notifications.filterMap _ = []
      rw [hsame, hnone]
      rfl
    rw [hlate, hpieces]
    exact ⟨rfl, .inl rfl⟩
  | false =>
    have hpieces : pieces = s.piece := if_neg (ne_true_of_eq_false hclosed)
    obtain ⟨hregistry, hviolation⟩ := pollEvents_error hclosed h
    -- the connection ends in the poll: behind what was decoded only removals are told
    let decoded := eventsIn (s.inbox.packetsIn pieces)
    have hlate : late = s.registry.applied decoded := by
      have hlog : last.registry.notifications =
          s.registry.told (decoded ++ (s.registry.applyAll decoded).clearing) := by
        rw [hregistry, Registry.clear_eq_applyAll, ← Registry.applyAll_append,
          Registry.notifications_applyAll, hnone, List.nil_append, ← hpieces]
      show last.registry.notifications.filterMap _ = _
      rw [hlog, ← Registry.applied_eq, Registry.applied_append, Registry.applied_clearing,
        List.append_nil]
    refine ⟨hlate, ?_⟩
    -- a poll that fails without a violation has received nothing
    rcases hviolation with hnothing | ⟨fault, hfault, he⟩
    · left
      rw [hlate]
      show s.registry.applied (eventsIn (s.inbox.packetsIn pieces)) = []
      rw [hpieces, hnothing]
      rfl
    · exact .inr ⟨fault, hpieces ▸ hfault, he⟩

end Session

/-! ### Runs -/

namespace Monitor

open BoardLink.Faout Session

variable {τ : Type} [Transport τ]

/-- **Which register changes a monitor prints.** Take all changes that the session applies to a device
in a run, from the connection on. Those that are applied while the monitor connects are not printed.
The others are printed once each and in their order, as long as the monitor is still running, and also
if it has ended because the connection was closed or failed. If it has ended with a violation, then
those are missing that its last poll has received in front of the violation. -/
theorem registerLines_run (transport : τ) (config : Config) (status : Bool) (polls : Nat) :
    let connecting : List Operation := [.call .deviceList, .take]
    let s₀ := create transport config none capabilities
    let s₁ := after connecting s₀
    let report := (run transport config status polls).1
    match (connect transport config none capabilities).1 with
    | .error e => report = ⟨[], some e⟩
    | .ok _ => ∃ listing lines log late,
      report.lines = listing ++ lines ∧ Lists s₁.devices listing ∧ Reads lines log ∧
      s₀.registry.applied (gather Operation.events (connecting ++ (turns status polls s₁).flatten) s₀) =
        s₀.registry.applied (gather Operation.events connecting s₀) ++
          log.filterMap Notification.change? ++ late ∧
      match report.error with
      | none => late = []
      | some e => ∃ done < polls,
        let s := after (turns status done s₁).flatten s₁
        let pieces := Operation.poll.pieces s
        late = s.registry.applied (eventsIn (s.inbox.packetsIn pieces)) ∧
          (late = [] ∨ ∃ fault, s.inbox.faultIn pieces = some fault ∧ e = .ofFault fault) := by
  intro connecting s₀ s₁ report
  -- a monitor that cannot connect prints nothing
  rcases hconnect : connect transport config none capabilities with ⟨e | serials, connected⟩
  · show (run transport config status polls).1 = _
    rw [run, hconnect]
  · obtain ⟨hlines, hreads, -, htold⟩ := reads_run hconnect status polls
    obtain ⟨-, hends⟩ := error_run hconnect status polls
    let last := (run transport config status polls).2
    refine ⟨_, _, _, last.registry.notifications.filterMap Notification.change?, hlines,
      lists_printDevices status s₁, hreads, ?_, ?_⟩
    · -- what is applied behind the connection is told, and handed out or still queued
      have hconnected := registry_after connecting s₀
      rw [gather_append, Registry.applied_append, ← hconnected.applied_eq, Registry.applied_eq s₁.registry,
        ← htold, List.filterMap_append, List.append_assoc]
    · show match (run transport config status polls).1.error with
        | none => _
        | some e => _
      generalize (run transport config status polls).1.error = error at hends
      -- the log is what was handed out; only a poll that fails leaves something behind it
      cases error with
      | none =>
        show last.registry.notifications.filterMap _ = []
        rw [show last.registry.notifications = [] from hends]
        rfl
      | some e =>
        obtain ⟨done, hdone, hnone, hfails⟩ := hends
        exact ⟨done, hdone, changes_of_failed_poll hnone hfails⟩

/-- A register change and behind it a byte that begins no packet arrive together. The change is applied
and not printed. -/
theorem registerLines_run_violation :
    let violation : Fault := .invalidFormat (.malformed .reservedMarker)
    let e : Event := .changed "FAOUT-01" 2 0 8
    let transport := listingBoard (encodePackets [.event e] ++ [0xc1])
    let connecting : List Operation := [.call .deviceList, .take]
    let s₀ := create transport {} none capabilities
    let s₁ := after connecting s₀
    (run transport {} false 1).1 = ⟨["FAOUT-01 [FAOUT]"], some (.ofFault violation)⟩ ∧
      s₀.registry.applied (gather Operation.events (connecting ++ (turns false 1 s₁).flatten) s₀) =
        s₀.registry.applied (gather Operation.events connecting s₀) ++ [e] := by
  intro violation e transport connecting s₀ s₁
  obtain ⟨⟨connected, hconnect⟩, -, hrun, hopen, hinbox, hconfig, harrivals, hregistry⟩ :=
    run_listingBoard (encodePackets [.event e] ++ [0xc1])
  have hpolled : after (turns false 0 s₁).flatten s₁ = s₁.takeNotifications.2 := by
    rw [turns, readings_false]
    rfl
  generalize hs : s₁.takeNotifications.2 = s at *
  -- the poll receives the change and the violation
  have hgets : readPackets.Gets MessagePack.defaultMessageLimit (Packet.event e).toValue (.event e) :=
    Packet.gets_of_length trivial rfl (by decide) (by decide) (by decide)
  have hdrain := drain_event_reserved hgets
  rw [← hinbox] at hdrain
  have hblock : encodePackets [.event e] ++ [0xc1] =
      0x95 :: (encodePackets [.event e] ++ [0xc1]).tail := by decide
  rw [hblock] at harrivals hdrain
  have hpiece : s.piece = [0x95 :: (encodePackets [.event e] ++ [0xc1]).tail] := by
    have hsize : (encodePackets [.event e] ++ [0xc1]).tail.length < s.config.bufferSize := by
      rw [hconfig]
      decide
    rw [piece, arriving_scripted harrivals hsize]
  have hfault : s.inbox.faultIn s.piece = some violation := by
    rw [hpiece, Inbox.faultIn_singleton, hdrain]
  have hreport : (run transport {} false 1).1 =
      ⟨["FAOUT-01 [FAOUT]"], some (.ofFault violation)⟩ := by
    have htold := tells_pollEvents hopen violation hfault
    have hfollow : (follow s 1).1 = ⟨[], some (.ofFault violation)⟩ := by
      rw [follow]
      generalize pollEvents s = outcome at htold ⊢
      obtain ⟨result, s'⟩ := outcome
      obtain rfl : result = _ := htold
      rfl
    rw [hrun, hfollow]
  refine ⟨hreport, ?_⟩
  -- the report is known, so the general theorem says which change is missing
  have hchanges := registerLines_run transport {} false 1
  rw [show connect transport {} none capabilities = _ from hconnect] at hchanges
  obtain ⟨listing, lines, log, late, hlines, hlists, hreads, happlied, hends⟩ := hchanges
  -- a run of one poll fails in the first one
  rw [hreport] at hlines hends
  obtain ⟨done, hdone, hlate, -⟩ := hends
  obtain rfl : done = 0 := Nat.lt_one_iff.1 hdone
  have hlost : late = [e] := by
    rw [hlate, show after (turns false 0 _).flatten _ = s from hpolled, Operation.pieces,
      if_neg (ne_true_of_eq_false hopen)]
    show s.registry.applied (eventsIn (s.inbox.packetsIn s.piece)) = [e]
    rw [hpiece, Inbox.packetsIn_singleton, hdrain, hregistry]
    rfl
  -- the one line that was printed lists the board
  have hnone : lines = [] := by
    have hone := congrArg List.length hlines
    have hlisting := hlists.length_pos
    rw [List.length_singleton, List.length_append] at hone
    exact List.eq_nil_of_length_eq_zero (by omega)
  have hnothing : log = [] := by
    have hlog := hreads.lines
    rw [hnone] at hlog
    cases hlog
    rfl
  rw [happlied, hlost, hnothing]
  exact congrArg (· ++ [e]) (List.append_nil _)

end Monitor

end BoardLink
