import BoardLink.Capability.Known
import BoardLink.Proofs.Session.Notifications
import BoardLink.Transport.Scripted

/-!
# How a session ends

A session ends with the first fatal error, or because it is closed, and in no other way. Its end
empties the queue of answers and tells the removal of each device that is attached at that moment,
behind what the last packets have told. Then nothing is done any more: operations are refused, and
leave the session with its transport as it is.

* `Operation.Makes.ends` — the crux: whatever an operation does, it ends the session exactly if its
  result is fatal, unless it was asked to close it;
* `Session.closed_iff_isFatal` — what this comes to in all sessions that can be reached.
-/

namespace BoardLink

open BoardLink.Wire

namespace Operation

variable {τ κ : Type} [Transport τ] [Capability κ]

/-- Whether an operation is one of those that concern the connection. The others are to take
notifications, to close the session and to install a hook. -/
def concernsConnection : Operation → Bool
  | .take | .close | .setHook => false
  | .call _ | .exchange _ | .send _ | .await | .poll | .feed _ => true

/-- **A session ends by a fatal error, or by being closed**, and by nothing else. -/
theorem Makes.ends {op : Operation} {s₁ : Session τ κ}
    {outcome : Except SessionError Reply × Session τ κ} (hopen : s₁.closed = false)
    (h : op.Makes s₁ outcome) :
    (outcome.2 = s₁.close ∧ (isFatal outcome.1 = true ∨ op = .close)) ∨
      (outcome.2.closed = false ∧ isFatal outcome.1 = false) := by
  cases h with
  | fatal he => exact .inl ⟨rfl, .inl he⟩
  | close => exact .inl ⟨rfl, .inr rfl⟩
  | @call c r a answers hr ha =>
    -- settling touches the registry, the hook and the counter, so it leaves the session open
    obtain ⟨registry, hook, queued, hsettle⟩ :=
      Session.settle_eq (c.outcome a) ({ s₁ with answers } : Session τ κ)
    right
    rw [hsettle]
    exact ⟨hopen, c.isFatal_outcome a⟩
  | refused he =>
    -- only a count that does not fit is refused in front of the request, and that is no fatal error
    obtain ⟨count, -, rfl, -⟩ := Call.request_error he
    exact .inr ⟨hopen, rfl⟩
  | @exchange r a answers ha | @await a answers ha =>
    -- what the session makes of an answer fails with errors that are not fatal
    exact .inr ⟨hopen, isFatal_of_failsOnly ((failsOnly_answerOutcome a).map _)⟩
  | starved | send | poll | feed | take | setHook => exact .inr ⟨hopen, rfl⟩

/-- An operation that leaves the session open has not failed fatally. -/
theorem Makes.not_fatal {op : Operation} {s₁ : Session τ κ}
    {outcome : Except SessionError Reply × Session τ κ} (hopen : s₁.closed = false)
    (h : op.Makes s₁ outcome) (hstays : outcome.2.closed = false) : isFatal outcome.1 = false := by
  rcases h.ends hopen with ⟨hends, -⟩ | ⟨-, hresult⟩
  · rw [hends, (Session.close_of_open hopen).1] at hstays
    cases hstays
  · exact hresult

/-- An operation on the connection that has not failed fatally leaves the session open. -/
theorem Makes.stays {op : Operation} {s₁ : Session τ κ}
    {outcome : Except SessionError Reply × Session τ κ} (hopen : s₁.closed = false)
    (h : op.Makes s₁ outcome) (hop : op.concernsConnection = true)
    (hresult : isFatal outcome.1 = false) : outcome.2.closed = false := by
  rcases h.ends hopen with ⟨-, hfatal | rfl⟩ | ⟨hstays, -⟩
  -- it closed: by a fatal error, against `hresult`, or by `close`, which is not on the connection
  · rw [hresult] at hfatal
    cases hfatal
  · cases hop
  · exact hstays

omit [Transport τ] [Capability κ] in
/-- A session that has ended refuses all that concerns the connection, and stays as it is. -/
theorem Idles.refuses {op : Operation} {s : Session τ κ}
    {outcome : Except SessionError Reply × Session τ κ} (h : op.Idles s outcome)
    (hop : op.concernsConnection = true) :
    outcome = (.error .closed, s) ∨ ∃ count, 0x100000000 ≤ count ∧
      outcome = (.error (.invalidArgument (.countTooLarge count)), s) ∧
      ((∃ serial addr port, op = .call (.readRegN serial addr port count)) ∨
        ∃ serial, op = .call (.readRaw serial count)) := by
  cases h with
  | closed => exact .inl rfl
  | refused he =>
    -- a count that does not fit the wire is refused before the session is asked
    obtain ⟨count, hlarge, rfl, hcall⟩ := Call.request_error he
    refine .inr ⟨count, hlarge, rfl, ?_⟩
    rcases hcall with ⟨serial, addr, port, rfl⟩ | ⟨serial, rfl⟩
    · exact .inl ⟨serial, addr, port, rfl⟩
    · exact .inr ⟨serial, rfl⟩
  | take | close | setHook => cases hop

/-- A session that has ended does not open again. -/
theorem closed_run (op : Operation) {s : Session τ κ} (hclosed : s.closed = true) :
    (op.run s).2.closed = true := by
  have hidles := op.run_idles hclosed
  generalize op.run s = outcome at hidles ⊢
  cases hidles with
  | closed | refused | take | close | setHook => exact hclosed

/-- So one that is open behind an operation was open in front of it. -/
theorem open_of_run {op : Operation} {s : Session τ κ} (hopen : (op.run s).2.closed = false) :
    s.closed = false := by
  rw [← Bool.not_eq_true]
  intro hclosed
  exact Bool.false_ne_true (hopen.symm.trans (op.closed_run hclosed))

/-- A session is at its end behind a fatal result, and no answer is left in it. -/
theorem ended_of_isFatal (op : Operation) {s : Session τ κ} (hopen : s.closed = false)
    (h : isFatal (op.run s).1 = true) :
    (op.run s).2.closed = true ∧ (op.run s).2.answers = [] := by
  -- what the operation takes in leaves the session open, so its result is what ends it
  obtain ⟨s₁, htakes, hmakes⟩ := op.run_makes hopen
  have hopen₁ : s₁.closed = false := htakes.closed.trans hopen
  rcases hmakes.ends hopen₁ with ⟨hends, -⟩ | ⟨-, hresult⟩
  · obtain ⟨hclosed, hanswers, -⟩ := Session.close_of_open hopen₁
    rw [hends]
    exact ⟨hclosed, hanswers⟩
  · exact absurd (hresult.symm.trans h) Bool.false_ne_true

end Operation

namespace Session

variable {τ κ : Type} [Transport τ] [Capability κ]

/-- Behind the end of the connection a poll is refused, and hands out nothing. -/
theorem poll_of_closed {s : Session τ κ} (hclosed : s.closed = true) :
    gather Operation.handed [.poll] s = [] ∧ after [.poll] s = s := by
  have hpoll : Operation.poll.run s = (.error .closed, s) := by
    have hidles := Operation.poll.run_idles hclosed
    generalize Operation.poll.run s = outcome at hidles
    cases hidles with
    | closed => rfl
  refine ⟨?_, congrArg Prod.snd hpoll⟩
  rw [gather, gather, Operation.handed, hpoll]
  rfl

/-- A poll that fails ends the session, if it has not ended before. -/
theorem closed_of_pollEvents_error {s s' : Session τ κ} {e : SessionError}
    (h : pollEvents s = (.error e, s')) : s'.closed = true := by
  cases hclosed : s.closed with
  | true =>
    rw [pollEvents, ensureOpen_bind_of_closed hclosed] at h
    obtain ⟨-, rfl⟩ := Prod.mk.inj h
    exact hclosed
  | false =>
    obtain ⟨s₁, htakes, hleaves⟩ := pollEvents_of_open hclosed
    rcases hleaves with ⟨e', -, hpoll⟩ | hpoll
    · obtain ⟨-, rfl⟩ := Prod.mk.inj (hpoll.symm.trans h)
      exact (close_of_open (htakes.closed.trans hclosed)).1
    · cases hpoll.symm.trans h

/-- A poll that succeeds hands out all that there is. -/
theorem notifications_of_pollEvents_ok {s s' : Session τ κ} {handed : List Notification}
    (h : pollEvents s = (.ok handed, s')) : s'.registry.notifications = [] := by
  cases hclosed : s.closed with
  | true =>
    rw [pollEvents, ensureOpen_bind_of_closed hclosed] at h
    cases h
  | false =>
    obtain ⟨s₁, -, ⟨e, -, hfails⟩ | htakes⟩ := pollEvents_of_open hclosed
    · cases hfails.symm.trans h
    · obtain ⟨-, rfl⟩ := Prod.mk.inj (htakes.symm.trans h)
      rfl

omit [Transport τ] [Capability κ] in
/-- Nothing is left of a session that has ended but its notifications. -/
def EmptyIfClosed (s : Session τ κ) : Prop :=
  s.closed = true → s.registry.devices = [] ∧ s.answers = []

omit [Transport τ] [Capability κ] in
theorem emptyIfClosed_close {s : Session τ κ} (hopen : s.closed = false) :
    s.close.EmptyIfClosed := by
  intro _
  obtain ⟨-, hanswers, hregistry⟩ := close_of_open hopen
  rw [hregistry]
  exact ⟨Registry.devices_clear _, hanswers⟩

omit [Transport τ] in
/-- Closing a session tells the removal of each of its devices, in ascending order. -/
theorem notifications_close {s : Session τ κ} (hopen : s.closed = false)
    (hone : s.registry.OnePerSerial) : s.close.registry.notifications =
      s.registry.notifications ++ s.registry.serials.map .deviceRemoved := by
  rw [(close_of_open hopen).2.2, Registry.clear_eq_applyAll, Registry.notifications_applyAll,
    Registry.told_clearing hone]

theorem EmptyIfClosed.run {s : Session τ κ} (h : s.EmptyIfClosed) (op : Operation) :
    (op.run s).2.EmptyIfClosed := by
  cases hclosed : s.closed with
  | true =>
    -- a closed session idles, and idling keeps devices and answers
    have hidles := op.run_idles hclosed
    generalize op.run s = outcome at hidles ⊢
    cases hidles with
    | closed | refused | take | close | setHook => exact fun _ => h hclosed
  | false =>
    obtain ⟨s₁, htakes, hmakes⟩ := op.run_makes hclosed
    have hopen : s₁.closed = false := htakes.closed.trans hclosed
    -- an open one either ends by `close`, which empties it, or stays open
    rcases hmakes.ends hopen with ⟨hends, -⟩ | ⟨hstays, -⟩
    · rw [hends]
      exact emptyIfClosed_close hopen
    · intro hends
      rw [hstays] at hends
      cases hends

theorem EmptyIfClosed.after {s : Session τ κ} (h : s.EmptyIfClosed)
    (operations : List Operation) : (after operations s).EmptyIfClosed := by
  induction operations generalizing s with
  | nil => exact h
  | cons op operations ih => exact ih (h.run op)

/-- In a run from the beginning each serial has one device. -/
theorem onePerSerial_after (transport : τ) (config : Config) (own : Option (CapabilityTable κ))
    (shared : CapabilityTable κ) (operations : List Operation) :
    (after operations (create transport config own shared)).registry.OnePerSerial := by
  have hfresh : (create transport config own shared).registry.OnePerSerial := List.nodup_nil
  -- the registry of a run is the first one with events applied, and each event keeps serials apart
  rw [(registry_after operations (create transport config own shared)).registry]
  exact hfresh.applyAll _

/-- **Fatal means closed, and closed is final.** Of a session that operations have led to:

* while it is open, an operation on the connection ends it exactly if its result is a fatal error;
* whatever ends it leaves no answers and no devices, and tells the removal of each device attached
  at that moment, in ascending order, behind all that was queued by then;
* once it has ended it has no devices and no answers, and stays so; what concerns the connection is
  refused, with `closed` unless a count that does not fit the wire was refused before, and leaves
  the whole session as it is. This holds over every transport, one that counts its uses as well, so
  nothing is sent and nothing is received. -/
theorem closed_iff_isFatal (transport : τ) (config : Config) (own : Option (CapabilityTable κ))
    (shared : CapabilityTable κ) (operations : List Operation) :
    let s := after operations (create transport config own shared)
    (s.closed = false → ∀ op : Operation,
      (op.concernsConnection = true →
        ((op.run s).2.closed = true ↔ isFatal (op.run s).1 = true)) ∧
      ((op.run s).2.closed = true →
        let attached := s.registry.applyAll (eventsIn (s.inbox.packetsIn (op.pieces s)))
        (op.run s).2.answers = [] ∧ (op.run s).2.registry.devices = [] ∧
          (op.run s).2.registry.notifications =
            attached.notifications ++ attached.serials.map .deviceRemoved ∧
          attached.serials.Pairwise (· < ·))) ∧
    (s.closed = true → s.registry.devices = [] ∧ s.answers = [] ∧ ∀ op : Operation,
      (op.run s).2.closed = true ∧
      (op.concernsConnection = true →
        op.run s = (.error .closed, s) ∨ ∃ count, 0x100000000 ≤ count ∧
          op.run s = (.error (.invalidArgument (.countTooLarge count)), s) ∧
          ((∃ serial addr port, op = .call (.readRegN serial addr port count)) ∨
            ∃ serial, op = .call (.readRaw serial count)))) := by
  intro s
  have hempty : s.EmptyIfClosed := EmptyIfClosed.after (fun h => by cases h) operations
  have hone : s.registry.OnePerSerial := onePerSerial_after transport config own shared operations
  constructor
  -- while it is open, what ends it is read off from what the operation makes
  · intro hclosed op
    obtain ⟨s₁, htakes, hmakes⟩ := op.run_makes hclosed
    have hopen : s₁.closed = false := htakes.closed.trans hclosed
    refine ⟨fun hop => ?_, fun hcloses => ?_⟩
    · -- the session stays open exactly if the result is not fatal
      rw [← not_iff_not, Bool.not_eq_true, Bool.not_eq_true]
      exact ⟨hmakes.not_fatal hopen, hmakes.stays hopen hop⟩
    -- what was attached is the registry that the operation met behind the packets it took in
    · rcases hmakes.ends hopen with ⟨hclose, -⟩ | ⟨hstays, -⟩
      · obtain ⟨hends, hanswers, -⟩ := close_of_open hopen
        have hone₁ : s₁.registry.OnePerSerial := htakes.registry ▸ hone.applyAll _
        have hdevices := (emptyIfClosed_close hopen hends).1
        rw [← htakes.registry, hclose]
        exact ⟨hanswers, hdevices, notifications_close hopen hone₁, hone₁.pairwise_serials⟩
      · rw [hstays] at hcloses
        cases hcloses
  -- once it has ended, an operation can only idle
  · intro hclosed
    obtain ⟨hdevices, hanswers⟩ := hempty hclosed
    exact ⟨hdevices, hanswers, fun op => ⟨op.closed_run hclosed, (op.run_idles hclosed).refuses⟩⟩

/-- A session whose server has gone: polling it is fatal, and polling it again is refused. -/
theorem closed_iff_isFatal_poll :
    let s : Session Scripted Known := create {} {} none {}
    isFatal (Operation.poll.run s).1 = true ∧ (after [.poll] s).closed = true ∧
      Operation.poll.run (after [.poll] s) = (.error .closed, after [.poll] s) := by
  intro s
  have hfatal : isFatal (Operation.poll.run s).1 = true := rfl
  obtain ⟨hopen, -⟩ := closed_iff_isFatal ({} : Scripted) {} none ({} : CapabilityTable Known) []
  have hends : (after [.poll] s).closed = true := ((hopen rfl .poll).1 rfl).2 hfatal
  obtain ⟨-, hclosed⟩ :=
    closed_iff_isFatal ({} : Scripted) {} none ({} : CapabilityTable Known) [.poll]
  obtain ⟨-, -, hrefuses⟩ := hclosed hends
  refine ⟨hfatal, hends, ?_⟩
  -- a poll asks for no count, so of the two refusals only `closed` is left
  rcases (hrefuses .poll).2 rfl with hrefused | ⟨count, -, -, ⟨_, _, _, hcall⟩ | ⟨_, hcall⟩⟩
  · exact hrefused
  · cases hcall
  · cases hcall

end Session

end BoardLink
