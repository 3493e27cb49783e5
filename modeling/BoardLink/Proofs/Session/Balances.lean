import BoardLink.Proofs.Session.Closing
import BoardLink.Proofs.Wire.Packets

/-!
# Where packets go

Each packet that a session decodes takes one of seven routes. An answer waits in the queue until a
caller consumes it. A packet with an unknown rcode is counted. A register change is told, or counted
as dropped if its device is not attached. And a device that appears or disappears is told, unless it
was there, or not there, already.

So a run balances (`Session.Balanced`): what was decoded on the one side, and on the other side what
callers consumed, what is still queued, and the counters. Device lists and failing calls are
operations like all others, and leave the balance alone.

* `Registry.countP_told` — a register change is told or dropped;
* `Session.Balanced.run` — the crux: one operation keeps the balance;
* `Session.decoded_balanced` — so a whole run does.
-/

namespace BoardLink

open BoardLink.Wire

/-- Whether an event is a register change. -/
def Wire.Event.isChange : Event → Bool
  | .changed .. => true
  | _ => false

/-- Whether a notification tells a register change. -/
def Notification.isChange : Notification → Bool
  | .registerChanged .. => true
  | _ => false

namespace Registry

variable {κ : Type} [Capability κ]

/-- Of one event: if it is a register change, it is told or else dropped. -/
theorem countP_tells (r : Registry κ) (e : Event) :
    (r.tells e).countP (·.isChange) + (r.apply e).2.dropped =
      r.dropped + if e.isChange then 1 else 0 := by
  -- of the three kinds only a change is counted, and only a change can be dropped
  cases e with
  | added serial =>
    simp only [tells, Registry.apply, Registry.add]
    split <;> exact Nat.zero_add _
  | removed serial =>
    simp only [tells, Registry.apply, Registry.remove]
    split <;> exact Nat.zero_add _
  | changed serial addr port value =>
    simp only [tells, Registry.apply, Registry.change]
    split
    · exact Nat.add_comm 1 r.dropped
    · exact Nat.zero_add _

/-- **A register change is told or dropped.** -/
theorem countP_told (r : Registry κ) (events : List Event) :
    (r.told events).countP (·.isChange) + (r.applyAll events).dropped =
      r.dropped + events.countP (·.isChange) := by
  induction events generalizing r with
  | nil => exact Nat.zero_add _
  | cons e events ih =>
    have hfirst := r.countP_tells e
    have hothers := ih (r.apply e).2
    have hcons : r.applyAll (e :: events) = (r.apply e).2.applyAll events := rfl
    -- the sums of the first event and of the others add up
    rw [told, List.countP_append, List.countP_cons, hcons]
    omega

/-- A device list and the end of a session make devices appear and disappear, and change none. -/
theorem countP_concluding (r : Registry κ) (result : Except SessionError Reply) (ends : Bool) :
    (r.concluding result ends).countP (·.isChange) = 0 := by
  -- both kinds of events that conclude an operation are no changes
  have hlisting : ∀ serials, (r.listing serials).countP (·.isChange) = 0 := by
    intro serials
    rw [listing, List.countP_append, List.countP_map, List.countP_map]
    simp [Function.comp_def, Event.isChange]
  have hclearing : (if ends then r.clearing else []).countP (·.isChange) = 0 := by
    split
    · rw [clearing, List.countP_map]
      simp [Function.comp_def, Event.isChange]
    · rfl
  unfold concluding
  rw [List.countP_append, hclearing]
  split
  · exact hlisting _
  · rfl

end Registry

/-! ### What callers consume -/

/-- Whether a result reports an answer, as a success or as an error that the answer brings. -/
def reportsAnswer : Except SessionError Reply → Bool
  | .ok _ => true
  | .error (.server ..) | .error (.unexpectedPayload _) | .error (.lengthMismatch ..) => true
  | .error _ => false

theorem reportsAnswer_of_failsOnly {result : Except SessionError Reply}
    (h : FailsOnly SessionError.IsOfAnswer result) : reportsAnswer result = true := by
  cases result with
  | ok reply => rfl
  | error e =>
    have he := h e rfl
    cases e with
    | server | unexpectedPayload | lengthMismatch => rfl
    | _ => exact he.elim

/-- What the caller of an operation gets for the answer that it consumes, if it consumes one. -/
def consumedBy : Operation → Except SessionError Reply → List (Except SessionError Reply)
  | .call _, result | .exchange _, result | .await, result =>
    if reportsAnswer result then [result] else []
  | _, _ => []

namespace Operation

variable {τ κ : Type} [Transport τ] [Capability κ]

/-- The packets that are decoded while an operation runs. -/
def decoded (op : Operation) (s : Session τ κ) : List Packet := s.inbox.packetsIn (op.pieces s)

/-- What the caller gets for the answer that an operation consumes. -/
def consumed (op : Operation) (s : Session τ κ) : List (Except SessionError Reply) :=
  consumedBy op (op.run s).1

/-- An operation consumes the answer that it takes off the queue, unless it ends the session. -/
theorem Makes.consumes {op : Operation} {s₁ : Session τ κ}
    {outcome : Except SessionError Reply × Session τ κ} (hopen : s₁.closed = false)
    (hstays : outcome.2.closed = false) (h : op.Makes s₁ outcome) :
    s₁.answers.length = (consumedBy op outcome.1).length + outcome.2.answers.length := by
  -- an answer that is taken is reported, as a success or as the error that it brings
  have htaken : ∀ {result : Except SessionError Reply} {a : Answer} {answers : List Answer},
      FailsOnly SessionError.IsOfAnswer result → s₁.answers = a :: answers →
        s₁.answers.length =
          (if reportsAnswer result then [result] else []).length + answers.length := by
    intro result a answers hresult ha
    rw [reportsAnswer_of_failsOnly hresult, if_pos rfl, ha]
    exact Nat.add_comm answers.length 1
  cases h with
  | fatal | close =>
    -- the queue of a session that ends is lost, which is why this is about one that stays open
    rw [(Session.close_of_open hopen).1] at hstays
    cases hstays
  | @call c r a answers hr ha =>
    obtain ⟨registry, hook, queued, hsettle⟩ :=
      Session.settle_eq (c.outcome a) ({ s₁ with answers } : Session τ κ)
    rw [hsettle]
    exact htaken (c.failsOnly_outcome a) ha
  | exchange ha | await ha => exact htaken ((failsOnly_answerOutcome _).map _) ha
  | @refused c e he =>
    obtain ⟨count, -, rfl, -⟩ := Call.request_error he
    exact (Nat.zero_add _).symm
  -- the waiting gave up and took nothing, whichever operation it was
  | starved => cases op <;> exact (Nat.zero_add _).symm
  | send | poll | feed | take | setHook => exact (Nat.zero_add _).symm

/-- Nothing but decoding counts packets with an unknown rcode. -/
theorem Makes.unknownRcodes_eq {op : Operation} {s₁ : Session τ κ}
    {outcome : Except SessionError Reply × Session τ κ} (h : op.Makes s₁ outcome) :
    outcome.2.unknownRcodes = s₁.unknownRcodes := by
  -- closing counts no packets
  have hends : s₁.close.unknownRcodes = s₁.unknownRcodes := by
    unfold Session.close
    split
    · rfl
    · obtain ⟨hook, queued, hadopt⟩ :=
        Session.adopt_eq { s₁ with closed := true, answers := [] } s₁.registry.clear
      rw [Session.shutDown, hadopt]
  cases h with
  | fatal | close => exact hends
  | @call c r a answers hr ha =>
    obtain ⟨registry, hook, queued, hsettle⟩ :=
      Session.settle_eq (c.outcome a) ({ s₁ with answers } : Session τ κ)
    rw [hsettle]
  | _ => rfl

/-- An operation counts the packets with an unknown rcode that are decoded while it runs. -/
theorem unknownRcodes_run (op : Operation) (s : Session τ κ) :
    (op.run s).2.unknownRcodes = s.unknownRcodes + (op.decoded s).countP (·.isUnknown) := by
  unfold decoded
  cases hclosed : s.closed with
  | true =>
    -- an ended session decodes nothing
    have hpieces : op.pieces s = [] := if_pos hclosed
    have hidles := op.run_idles hclosed
    rw [hpieces]
    generalize op.run s = outcome at hidles
    cases hidles with
    | closed | refused | take | close | setHook => rfl
  | false =>
    obtain ⟨s₁, htakes, hmakes⟩ := op.run_makes hclosed
    rw [hmakes.unknownRcodes_eq, htakes.unknownRcodes]

/-- The log of notifications, those handed out and those queued, grows by what the registry tells
about the events of an operation. -/
theorem log_run (op : Operation) (s : Session τ κ) :
    op.handed s ++ (op.run s).2.registry.notifications =
      s.registry.notifications ++ s.registry.told (op.events s) := by
  rw [(op.registry_run s).log, Registry.notifications_applyAll]

/-- The register changes among the events of an operation are those that are decoded. -/
theorem countP_events (op : Operation) (s : Session τ κ) :
    (op.events s).countP (·.isChange) = (eventsIn (op.decoded s)).countP (·.isChange) := by
  rw [events, List.countP_append, Registry.countP_concluding]
  rfl

end Operation

/-! ### The balance of a run -/

namespace Session

variable {τ κ : Type}

/-- **A session balances**: `decoded` are the packets decoded since it was created, `consumed` is
what callers got for the answers among them, and `handed` are the notifications handed out. -/
structure Balanced (s : Session τ κ) (decoded : List Packet)
    (consumed : List (Except SessionError Reply)) (handed : List Notification) : Prop where
  answers : s.closed = false →
    (answersIn decoded).length = consumed.length + s.pendingAnswers
  changes : (eventsIn decoded).countP (·.isChange) =
    (handed ++ s.registry.notifications).countP (·.isChange) + s.droppedChanges
  unknown : decoded.countP (·.isUnknown) = s.unknownRcodes

/-- A session that has just been created balances. -/
theorem balanced_create (transport : τ) (config : Config) (own : Option (CapabilityTable κ))
    (shared : CapabilityTable κ) : (create transport config own shared).Balanced [] [] [] where
  answers _ := rfl
  changes := rfl
  unknown := rfl

variable [Transport τ] [Capability κ]

/-- **An operation keeps the balance.** -/
theorem Balanced.run {s : Session τ κ} {decoded : List Packet}
    {consumed : List (Except SessionError Reply)} {handed : List Notification}
    (h : s.Balanced decoded consumed handed) (op : Operation) :
    (op.run s).2.Balanced (decoded ++ op.decoded s) (consumed ++ op.consumed s)
      (handed ++ op.handed s) where
  answers hstays := by
    -- an open session has been open before
    have hopen : s.closed = false := Operation.open_of_run hstays
    obtain ⟨s₁, htakes, hmakes⟩ := op.run_makes hopen
    have hqueue : s₁.answers.length = s.pendingAnswers + (answersIn (op.decoded s)).length := by
      rw [htakes.answers, List.length_append]
      rfl
    have hmade : s₁.answers.length = (op.consumed s).length + (op.run s).2.pendingAnswers :=
      hmakes.consumes (htakes.closed.trans hopen) hstays
    have hbefore := h.answers hopen
    rw [answersIn_append, List.length_append, List.length_append]
    omega
  changes := by
    have hdropped : (op.run s).2.droppedChanges = (s.registry.applyAll (op.events s)).dropped := by
      rw [droppedChanges, (op.registry_run s).registry]
      rfl
    -- each decoded change goes to the log or is dropped, and the other events are none
    have htold := s.registry.countP_told (op.events s)
    rw [op.countP_events] at htold
    have hbefore := h.changes
    rw [droppedChanges] at hbefore
    rw [List.append_assoc, op.log_run, ← List.append_assoc, eventsIn_append, List.countP_append,
      List.countP_append, hdropped]
    omega
  unknown := by
    rw [List.countP_append, h.unknown, op.unknownRcodes_run]

/-- **A run keeps the balance.** -/
theorem Balanced.after {s : Session τ κ} {decoded : List Packet}
    {consumed : List (Except SessionError Reply)} {handed : List Notification}
    (h : s.Balanced decoded consumed handed) (operations : List Operation) :
    (after operations s).Balanced (decoded ++ gather Operation.decoded operations s)
      (consumed ++ gather Operation.consumed operations s)
      (handed ++ gather Operation.handed operations s) := by
  induction operations generalizing s decoded consumed handed with
  | nil =>
    simp only [gather, List.append_nil]
    exact h
  | cons op operations ih =>
    -- the records of a run are one behind the other, the balance is that of their sums
    have hlater := ih (h.run op)
    simp only [List.append_assoc] at hlater
    exact hlater

/-- **Every packet is accounted for.** At each point of a run, for the packets decoded so far:

* while the session is open, as many of them are answers as callers have consumed, as a success or as
  an error, and are still queued;
* as many are register changes as were told, whether that was taken or not, and were dropped;
* as many have an unknown rcode as were counted.

And whatever operation comes next, let `r` be the registry as an event finds it among the packets
that are decoded then. The event of a device that appears is told once if the device is not in `r`,
and not at all if it is; that of a device that disappears, the other way round. What it tells goes
behind what was told before. -/
theorem decoded_balanced (transport : τ) (config : Config) (own : Option (CapabilityTable κ))
    (shared : CapabilityTable κ) (operations : List Operation) :
    let s₀ := create transport config own shared
    let s := after operations s₀
    let decoded := gather Operation.decoded operations s₀
    let log := gather Operation.handed operations s₀ ++ s.registry.notifications
    (s.closed = false → (answersIn decoded).length =
      (gather Operation.consumed operations s₀).length + s.pendingAnswers) ∧
    (eventsIn decoded).countP (·.isChange) = log.countP (·.isChange) + s.droppedChanges ∧
    decoded.countP (·.isUnknown) = s.unknownRcodes ∧
    ∀ (op : Operation) (before behind : List Packet) (e : Event),
      op.decoded s = before ++ .event e :: behind →
        let r := s.registry.applyAll (eventsIn before)
        ∃ queued rest,
          op.handed s ++ (op.run s).2.registry.notifications = r.notifications ++ queued ++ rest ∧
          (r.apply e).2.notifications = r.notifications ++ queued ∧
          (∀ x, e = .added x →
            if r.contains x then queued = [] else ∃ c, queued = [.deviceAdded x c]) ∧
          (∀ x, e = .removed x →
            if r.contains x then queued = [.deviceRemoved x] else queued = []) := by
  intro s₀ s decoded log
  have hbalanced := (balanced_create transport config own shared).after operations
  refine ⟨hbalanced.answers, hbalanced.changes, hbalanced.unknown, ?_⟩
  intro op before behind e hsplit r
  -- the events of the operation are those in front of this one, this one, and the others
  obtain ⟨concluding, hconcluding⟩ : ∃ concluding,
      op.events s = eventsIn (op.decoded s) ++ concluding := ⟨_, rfl⟩
  have hdecoded : eventsIn (op.decoded s) = eventsIn before ++ e :: eventsIn behind := by
    rw [hsplit, eventsIn_append]
    rfl
  have hevents : op.events s = eventsIn before ++ e :: (eventsIn behind ++ concluding) := by
    rw [hconcluding, hdecoded, List.append_assoc]
    rfl
  refine ⟨r.tells e, (r.apply e).2.told (eventsIn behind ++ concluding), ?_,
    r.notifications_apply e, ?_, ?_⟩
  · rw [op.log_run, hevents, Registry.told_append, Registry.told, Registry.notifications_applyAll]
    simp only [List.append_assoc]
    rfl
  -- the event of a device that appears: told if it was missing
  · rintro x rfl
    rw [Registry.tells]
    split
    · rfl
    · exact ⟨_, rfl⟩
  -- the event of a device that disappears: told if it was there
  · rintro x rfl
    rw [Registry.tells]
    split <;> rfl

/-- All that can arrive: a packet that is not known, a device that appears, a change of it and one of
a device that is not there, and an answer that nobody has asked for yet. -/
theorem decoded_balanced_feed :
    let a : Answer := .success (.ofNat64 17)
    let packets : List Packet := [.unknown 7 [], .event (.added "FAOUT-01"),
      .event (.changed "FAOUT-01" 0 1 8), .event (.changed "FAOUT-02" 0 1 8), .answer a]
    let op : Operation := .feed (encodePackets packets)
    let s₀ : Session SendOnly Known := create {} {} none {}
    let s := (op.run s₀).2
    op.decoded s₀ = packets ∧ s.closed = false ∧
      1 = (op.consumed s₀).length + s.pendingAnswers ∧
      2 = (op.handed s₀ ++ s.registry.notifications).countP (·.isChange) + s.droppedChanges ∧
      1 = s.unknownRcodes ∧
      ∃ c rest, op.handed s₀ ++ s.registry.notifications = .deviceAdded "FAOUT-01" c :: rest := by
  intro a packets op s₀ s
  -- none of the packets is long, so each of them is got as it is
  have hgets : ∀ p ∈ packets, readPackets.Gets MessagePack.defaultMessageLimit p.toValue p := by
    simp only [packets, List.forall_mem_cons]
    refine ⟨Packet.gets_of_length (by decide : (3 : Int64) < 7) rfl (by decide) (by decide)
        (by decide),
      Packet.gets_of_length trivial rfl (by decide) (by decide) (by decide),
      Packet.gets_of_length trivial rfl (by decide) (by decide) (by decide),
      Packet.gets_of_length trivial rfl (by decide) (by decide) (by decide),
      Packet.gets_of_length (by decide : (0 : Int64) ≤ 0) rfl (by decide) (by decide) (by decide),
      ?_⟩
    exact fun p hp => absurd hp List.not_mem_nil
  have hdrain : (s₀.inbox.feed (encodePackets packets)).drain = (⟨packets, none⟩, s₀.inbox) :=
    Inbox.drain_encodePackets (by decide) hgets
  have hdecoded : op.decoded s₀ = packets := by
    show s₀.inbox.packetsIn [encodePackets packets] = packets
    rw [Inbox.packetsIn_singleton, hdrain]
  have hrun : op.run s₀ = (.ok .done, s₀.hear (encodePackets packets)) := by
    show ((fun _ => Reply.done) <$> Session.feed (encodePackets packets)) s₀ = _
    rw [SessionM.map_apply, feed_of_open rfl, deliver_eq, hdrain]
    rfl
  have hopen : s.closed = false := by
    show (op.run s₀).2.closed = false
    rw [hrun]
    exact (Takes.of_hear s₀ (encodePackets packets)).closed
  obtain ⟨hanswers, hchanges, hunknown, -⟩ :=
    decoded_balanced (SendOnly.mk {}) {} none ({} : CapabilityTable Known) [op]
  obtain ⟨-, -, -, hevent⟩ :=
    decoded_balanced (SendOnly.mk {}) {} none ({} : CapabilityTable Known) []
  -- the event stands behind one other packet, with the registry still empty
  obtain ⟨queued, rest, hlog, -, hadded, -⟩ :=
    hevent op [.unknown 7 []] (packets.drop 2) (.added "FAOUT-01") hdecoded
  obtain ⟨c, rfl⟩ : ∃ c, queued = [.deviceAdded "FAOUT-01" c] := hadded "FAOUT-01" rfl
  simp only [gather, List.append_nil] at hanswers hchanges hunknown
  have hanswers := hanswers hopen
  rw [show op.decoded (create _ _ _ _) = packets from hdecoded] at hanswers hchanges hunknown
  exact ⟨hdecoded, hopen, hanswers, hchanges, hunknown, c, rest, hlog⟩

end Session

end BoardLink
