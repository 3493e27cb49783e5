import BoardLink.Proofs.Session.Alike
import BoardLink.Proofs.Session.Closing

/-!
# Only whole requests go out

Requests follow each other on the wire with nothing between them, so a request that is cut off must
be the last thing on it. A session sends a request in as many sends as the transport needs. If it
cannot send all of it, it ends, and from then on it leaves the transport alone.

What goes out is recorded by a transport of its own, `Tapped`, which passes everything on to the
transport below and which a session does not notice (`Tapped.respects_inner`).

* `Session.accepted_sendAll` — the crux: a send loop hands over a front part of its bytes, and all
  of them exactly if it succeeds;
* `Operation.run_sends` — one operation sends its request, or a part of it and ends the session;
* `Session.accepted_after` — so what has gone out in a run is whole requests, and behind them at
  most a part of one that was cut off.
-/

namespace BoardLink

open BoardLink.Wire

/-! ### A tapped transport -/

/-- A transport that records what is accepted for sending. -/
structure Tapped (τ : Type) where
  inner : τ
  accepted : Bytes := []

namespace Tapped

variable {τ : Type} [Transport τ]

/-- Sends over the transport below. A send that accepts `n` bytes has taken them from the front of
what it was offered. -/
def send (t : Tapped τ) (offered : Bytes) : Except IoFault Nat × Tapped τ :=
  match Transport.send t.inner offered with
  | (.ok n, inner) => (.ok n, ⟨inner, t.accepted ++ offered.take n⟩)
  | (.error fault, inner) => (.error fault, ⟨inner, t.accepted⟩)

/-- Receives from the transport below. -/
def receive (t : Tapped τ) (size : Nat) : Except IoFault Bytes × Tapped τ :=
  ((Transport.receive t.inner size).1, { t with inner := (Transport.receive t.inner size).2 })

theorem inner_send (t : Tapped τ) (offered : Bytes) :
    Transport.send t.inner offered = ((t.send offered).1, (t.send offered).2.inner) := by
  unfold send
  split
  next n inner hsend => exact hsend
  next fault inner hsend => exact hsend

theorem inner_receive (t : Tapped τ) (size : Nat) :
    Transport.receive t.inner size = ((t.receive size).1, (t.receive size).2.inner) := rfl

end Tapped

instance {τ : Type} [Transport τ] : Transport (Tapped τ) where
  send := Tapped.send
  receive := Tapped.receive
  canReceive t := Transport.canReceive t.inner
  sendPatience t := Transport.sendPatience t.inner
  receivePatience t := Transport.receivePatience t.inner
  sendPatience_lt {t _ offered _} h hk :=
    Transport.sendPatience_lt (h ▸ t.inner_send offered) hk
  receivePatience_lt_of_data {t _ size _} h hne :=
    Transport.receivePatience_lt_of_data (h ▸ t.inner_receive size) hne
  receivePatience_lt_of_fault {t _ size _} h hk :=
    Transport.receivePatience_lt_of_fault (h ▸ t.inner_receive size) hk

namespace Tapped

variable {τ : Type} [Transport τ]

/-- A session does not notice that its transport is tapped. -/
theorem respects_inner : Transport.Respects (Tapped.inner : Tapped τ → τ) where
  send_eq := inner_send
  receive_eq := inner_receive
  canReceive_eq _ := rfl

theorem accepted_of_ok {t t' : Tapped τ} {offered : Bytes} {n : Nat}
    (h : Transport.send t offered = (.ok n, t')) :
    t'.accepted = t.accepted ++ offered.take n := by
  have hsend : t.send offered = (.ok n, t') := h
  unfold send at hsend
  split at hsend
  · cases hsend
    rfl
  · cases hsend

theorem accepted_of_error {t t' : Tapped τ} {offered : Bytes} {fault : IoFault}
    (h : Transport.send t offered = (.error fault, t')) : t'.accepted = t.accepted := by
  have hsend : t.send offered = (.error fault, t') := h
  unfold send at hsend
  split at hsend
  · cases hsend
  · cases hsend
    rfl

end Tapped

namespace Session

variable {τ κ α β : Type}

/-! ### Sending -/

section Sending

variable [Transport τ]

/-- **What a send loop hands over** is a front part of its bytes: all of them if it succeeds, and
not all of them if it fails. The induction follows the loop. -/
theorem accepted_sendAll (bytes : Bytes) (s : Session (Tapped τ) κ) :
    ∃ front rest, bytes = front ++ rest ∧
      (sendAll bytes s).2.transport.accepted = s.transport.accepted ++ front ∧
      match (sendAll bytes s).1 with
      | .ok _ => rest = []
      | .error _ => rest ≠ [] := by
  fun_induction sendAll bytes s with
  -- all is sent
  | case1 s => exact ⟨[], [], rfl, (List.append_nil _).symm, rfl⟩
  | case2 s b rest transport hsend =>
    -- the transport takes nothing and so has gone; what is left is not empty
    refine ⟨[], b :: rest, rfl, ?_, List.cons_ne_nil b rest⟩
    exact (congrArg Tapped.accepted (close_transport _)).trans (Tapped.accepted_of_ok hsend)
  | case3 s b rest n transport hsend ih =>
    -- a part is taken, and the loop goes on with the rest of it
    obtain ⟨front, left, hrest, haccepted, hall⟩ := ih
    refine ⟨b :: rest.take n ++ front, left, ?_, ?_, hall⟩
    · rw [List.append_assoc, ← hrest, List.cons_append, List.take_append_drop]
    · rw [haccepted, ← List.append_assoc]
      exact congrArg (· ++ front) (Tapped.accepted_of_ok hsend)
  | case4 s b rest fault transport hsend hinterrupted hpatience ih =>
    -- nothing was accepted, and the same bytes are offered again
    obtain ⟨front, left, hrest, haccepted, hall⟩ := ih
    refine ⟨front, left, hrest, ?_, hall⟩
    rw [haccepted]
    exact congrArg (· ++ front) (Tapped.accepted_of_error hsend)
  | case5 s b rest fault transport hsend hfatal =>
    -- another fault ends the session, and nothing of this offer was taken
    refine ⟨[], b :: rest, rfl, ?_, List.cons_ne_nil b rest⟩
    rw [List.append_nil]
    exact (congrArg Tapped.accepted (close_transport _)).trans (Tapped.accepted_of_error hsend)

/-- What a request hands over, on an open session. -/
theorem accepted_sendRequest {s : Session (Tapped τ) κ} (hopen : s.closed = false) (r : Request) :
    ∃ front, (sendRequest r s).2.transport.accepted = s.transport.accepted ++ front ∧
      match (sendRequest r s).1 with
      | .ok _ => front = r.encode
      | .error _ => front <+: r.encode ∧ front ≠ r.encode := by
  obtain ⟨front, rest, hencode, haccepted, hall⟩ := accepted_sendAll r.encode s
  rw [sendRequest_of_open hopen]
  refine ⟨front, haccepted, ?_⟩
  generalize sendAll r.encode s = outcome at hall
  rcases outcome with ⟨e | u, s'⟩
  -- what is left over is not empty, so what went out is not the whole encoding
  · have hrest : rest ≠ [] := hall
    refine ⟨hencode ▸ List.prefix_append front rest, fun hwhole => ?_⟩
    rw [hwhole] at hencode
    exact hrest (List.append_right_eq_self.1 hencode.symm)
  · have hrest : rest = [] := hall
    rw [hencode, hrest, List.append_nil]

end Sending

/-! ### Steps that send nothing -/

/-- A step that hands nothing to the transport. -/
def Quiet (x : SessionM (Tapped τ) κ α) : Prop :=
  ∀ s, (x s).2.transport.accepted = s.transport.accepted

theorem Quiet.bind {x : SessionM (Tapped τ) κ α} {f : α → SessionM (Tapped τ) κ β} (hx : Quiet x)
    (hf : ∀ a, Quiet (f a)) : Quiet (x >>= f) := by
  intro s
  have hfirst := hx s
  rw [SessionM.bind_apply]
  generalize x s = outcome at hfirst ⊢
  rcases outcome with ⟨e | a, s'⟩
  · exact hfirst
  · exact (hf a s').trans hfirst

theorem Quiet.map {x : SessionM (Tapped τ) κ α} (f : α → β) (hx : Quiet x) : Quiet (f <$> x) := by
  intro s
  rw [SessionM.map_apply]
  exact hx s

theorem quiet_ensureOpen : Quiet (τ := τ) (κ := κ) ensureOpen := by
  intro s
  cases hclosed : s.closed with
  | true => rw [ensureOpen_of_closed hclosed]
  | false => rw [ensureOpen_of_open hclosed]

variable [Capability κ]

theorem quiet_deliver (data : Bytes) : Quiet (τ := τ) (κ := κ) (deliver data) := by
  intro s
  -- decoding works on what has arrived, and does not touch the transport
  rcases hprocess : process { s with inbox := s.inbox.feed data } with ⟨result, s'⟩
  have hdeliver : deliver data s = (result, s') := hprocess
  have htransport := process_transport hprocess
  rw [hdeliver]
  exact congrArg Tapped.accepted htransport

variable [Transport τ]

theorem quiet_receiveMore (tolerate : Bool) : Quiet (τ := τ) (κ := κ) (receiveMore tolerate) := by
  intro s
  have hreceive : (Transport.receive s.transport s.config.bufferSize).2.accepted =
    s.transport.accepted := rfl
  unfold receiveMore
  -- only what the receive has left of the transport matters
  generalize Transport.receive s.transport s.config.bufferSize = received at hreceive ⊢
  rcases received with ⟨fault | (_ | ⟨b, data⟩), transport⟩
  · simp only
    split
    · exact hreceive
    · split
      · exact hreceive
      · exact (congrArg Tapped.accepted (close_transport _)).trans hreceive
  · exact (congrArg Tapped.accepted (close_transport _)).trans hreceive
  · have hdeliver := quiet_deliver (b :: data) { s with transport }
    simp only
    generalize deliver (b :: data) { s with transport } = outcome at hdeliver ⊢
    rcases outcome with ⟨e | u, s'⟩
    · exact hdeliver.trans hreceive
    · exact hdeliver.trans hreceive

theorem quiet_awaitAnswer : Quiet (τ := τ) (κ := κ) awaitAnswer := by
  intro s
  fun_induction awaitAnswer s with
  | case1 | case4 => rfl
  | case2 s hnone hcan e s' hmore =>
    -- no answer is there, and the receive fails or goes on waiting; either way nothing is sent
    have hquiet := quiet_receiveMore false s
    rw [hmore] at hquiet
    exact hquiet
  | case3 s hnone hcan n s' hmore hpatience ih =>
    have hquiet := quiet_receiveMore false s
    rw [hmore] at hquiet
    exact ih.trans hquiet

theorem quiet_waitForAnswer : Quiet (τ := τ) (κ := κ) waitForAnswer :=
  quiet_ensureOpen.bind fun _ => quiet_awaitAnswer

/-- An exchange hands over what its request does. -/
theorem accepted_call (r : Request) (s : Session (Tapped τ) κ) :
    (call r s).2.transport.accepted = (sendRequest r s).2.transport.accepted := by
  rw [call, SessionM.bind_apply]
  rcases sendRequest r s with ⟨e | u, s'⟩
  · rfl
  · exact quiet_waitForAnswer s'

theorem quiet_pollEvents : Quiet (τ := τ) (κ := κ) pollEvents := by
  intro s
  cases hclosed : s.closed with
  | true =>
    rw [pollEvents, ensureOpen_bind_of_closed hclosed]
  | false =>
    -- a poll may receive, and takes the notifications behind that
    rw [pollEvents_apply hclosed]
    split
    · exact (quiet_receiveMore true).bind (fun _ => fun _ => rfl) s
    · rfl

end Session

namespace Operation

variable {τ κ : Type} [Transport τ] [Capability κ]

/-- What an operation hands over is what its request does. -/
theorem accepted_run (op : Operation) (s : Session (Tapped τ) κ) :
    (op.run s).2.transport.accepted = match op.request? with
      | none => s.transport.accepted
      | some r => (Session.sendRequest r s).2.transport.accepted := by
  cases op with
  | call c =>
    show (c.run s).2.transport.accepted = _
    rw [c.run_eq, request?]
    cases c.request with
    | error e => rfl
    | ok r =>
      -- the request is sent in front of everything else, and what follows is quiet
      have hcall := Session.accepted_call r s
      simp only [Except.toOption]
      generalize Session.call r s = outcome at hcall ⊢
      rcases outcome with ⟨e | a, s'⟩
      · exact hcall
      · obtain ⟨registry, hook, queued, hsettle⟩ := Session.settle_eq (c.read a) s'
        simp only [hsettle]
        exact hcall
  | exchange r =>
    show ((Reply.answer <$> Session.call r) s).2.transport.accepted = _
    rw [SessionM.map_apply]
    exact Session.accepted_call r s
  | send r =>
    show (((fun _ => Reply.done) <$> Session.sendRequest r) s).2.transport.accepted = _
    rw [SessionM.map_apply]
    rfl
  | await => exact Session.quiet_waitForAnswer.map Reply.answer s
  | poll => exact Session.quiet_pollEvents.map Reply.notifications s
  | feed data =>
    have hfeed : Session.Quiet (τ := τ) (κ := κ) (Session.feed data) :=
      Session.quiet_ensureOpen.bind fun _ => Session.quiet_deliver data
    exact hfeed.map (fun _ => Reply.done) s
  | take | setHook => rfl
  | close => exact congrArg Tapped.accepted (Session.close_transport s)

omit [Capability κ] in
/-- The request that an operation on an open session fails to send. -/
def cutOff (op : Operation) (s : Session τ κ) : List Request :=
  if s.closed then [] else
  match op.request? with
  | none => []
  | some r =>
    match Session.sendRequest r s with
    | (.ok _, _) => []
    | (.error _, _) => [r]

omit [Capability κ] in
theorem cutOff_of_closed (op : Operation) {s : Session τ κ} (hclosed : s.closed = true) :
    op.cutOff s = [] := if_pos hclosed

omit [Capability κ] in
theorem sent_of_closed (op : Operation) {s : Session τ κ} (hclosed : s.closed = true) :
    op.sent s = [] := by
  unfold sent
  cases op.request? with
  | none => rfl
  | some r => simp only [Session.sendRequest_of_closed hclosed]

/-- A session that has ended leaves its transport alone. -/
theorem transport_run_of_closed (op : Operation) {s : Session τ κ} (hclosed : s.closed = true) :
    (op.run s).2.transport = s.transport := by
  have hidles := op.run_idles hclosed
  generalize op.run s = outcome at hidles ⊢
  cases hidles with
  | closed | refused | take | close | setHook => rfl

/-- A request that is cut off ends the session. -/
theorem closed_of_cutOff (op : Operation) {s : Session τ κ} (hcut : op.cutOff s ≠ []) :
    -- an ended session sends nothing, so none of its requests is cut off
    (op.run s).2.closed = true := by
  have hopen : s.closed = false := by
    rw [← Bool.not_eq_true]
    exact fun hclosed => hcut (op.cutOff_of_closed hclosed)
  rw [← Bool.not_eq_false]
  intro hstays
  obtain ⟨s₁, htakes, hmakes⟩ := op.run_makes hopen
  -- an operation that leaves the session open has sent its request
  have hsent := op.sent_of_not_fatal hopen (hmakes.not_fatal (htakes.closed.trans hopen) hstays)
  unfold cutOff at hcut
  rw [if_neg (ne_true_of_eq_false hopen)] at hcut
  unfold sent at hsent
  cases hr : op.request? with
  | none =>
    rw [hr] at hcut
    exact hcut rfl
  | some r =>
    rw [hr] at hcut hsent
    simp only at hcut hsent
    split at hcut
    next hok => exact hcut rfl
    next e s' hfail =>
      rw [hfail] at hsent
      cases hsent

end Operation

namespace Session

variable {τ κ : Type}

/-- **What goes out between `s` and `s'`**: whole requests, and then a part of the request that was
cut off, if there is one. A session that has cut off a request has ended. -/
structure Sends (s : Session (Tapped τ) κ) (whole cut : List Request) (s' : Session (Tapped τ) κ) :
    Prop where
  accepted : ∃ tail,
    s'.transport.accepted = s.transport.accepted ++ whole.flatMap Request.encode ++ tail ∧
      ((cut = [] ∧ tail = []) ∨ ∃ r, cut = [r] ∧ tail <+: r.encode ∧ tail ≠ r.encode)
  closed : cut ≠ [] → s'.closed = true

theorem Sends.none {s s' : Session (Tapped τ) κ}
    (h : s'.transport.accepted = s.transport.accepted) : Sends s [] [] s' where
  accepted := ⟨[], by simpa using h, .inl ⟨rfl, rfl⟩⟩
  closed hcut := absurd rfl hcut

/-- Behind whole requests anything can follow. -/
theorem Sends.trans {s s' s'' : Session (Tapped τ) κ} {whole later cut : List Request}
    (h : Sends s whole [] s') (h' : Sends s' later cut s'') : Sends s (whole ++ later) cut s'' where
  accepted := by
    -- nothing was cut off before, so the tail is that of the later ones
    obtain ⟨tail, haccepted, ⟨-, rfl⟩ | ⟨r, hr, -⟩⟩ := h.accepted
    · obtain ⟨tail', haccepted', hcut⟩ := h'.accepted
      refine ⟨tail', ?_, hcut⟩
      rw [haccepted', haccepted, List.append_nil, List.flatMap_append, List.append_assoc _ _ tail']
      simp only [List.append_assoc]
    · cases hr
  closed := h'.closed

end Session

/-- **An operation sends its request**, or a part of it and ends the session. -/
theorem Operation.run_sends {τ κ : Type} [Transport τ] [Capability κ] (op : Operation)
    (s : Session (Tapped τ) κ) : s.Sends (op.sent s) (op.cutOff s) (op.run s).2 := by
  -- an ended session sends nothing; an open one sends the request whole, or fails at it and ends
  cases hclosed : s.closed with
  | true =>
    rw [op.sent_of_closed hclosed, op.cutOff_of_closed hclosed]
    exact .none (congrArg Tapped.accepted (op.transport_run_of_closed hclosed))
  | false =>
    refine ⟨?_, op.closed_of_cutOff⟩
    have haccepted := op.accepted_run s
    unfold sent cutOff
    rw [if_neg (ne_true_of_eq_false hclosed)]
    cases hr : op.request? with
    | none =>
      rw [hr] at haccepted
      exact ⟨[], by simpa using haccepted, .inl ⟨rfl, rfl⟩⟩
    | some r =>
      rw [hr] at haccepted
      obtain ⟨front, hfront, hwhole⟩ := Session.accepted_sendRequest hclosed r
      simp only at haccepted ⊢
      rw [← haccepted] at hfront
      generalize Session.sendRequest r s = outcome at hwhole ⊢
      rcases outcome with ⟨e | u, s'⟩
      -- the send has failed: a proper front of the request is out
      · exact ⟨front, by simpa using hfront, .inr ⟨r, rfl, hwhole⟩⟩
      · have hall : front = r.encode := hwhole
        exact ⟨[], by simpa [hall] using hfront, .inl ⟨rfl, rfl⟩⟩

namespace Session

variable {τ κ : Type} [Transport τ] [Capability κ]

/-! ### Runs -/

/-- A session that has ended stays so, and leaves its transport alone. -/
theorem after_of_closed {s : Session τ κ} (hclosed : s.closed = true)
    (operations : List Operation) :
    (after operations s).closed = true ∧ (after operations s).transport = s.transport := by
  induction operations generalizing s with
  | nil => exact ⟨hclosed, rfl⟩
  | cons op operations ih =>
    obtain ⟨hends, htransport⟩ := ih (op.closed_run hclosed)
    exact ⟨hends, htransport.trans (op.transport_run_of_closed hclosed)⟩

/-- Operations on a session that has ended contribute nothing to a record of which that is true of
each. -/
theorem gather_of_closed {α : Type} {record : Operation → Session τ κ → List α}
    (hrecord : ∀ op s, s.closed = true → record op s = []) {s : Session τ κ}
    (hclosed : s.closed = true) (operations : List Operation) :
    gather record operations s = [] := by
  induction operations generalizing s with
  | nil => rfl
  | cons op operations ih =>
    rw [gather, hrecord op s hclosed, ih (op.closed_run hclosed)]
    rfl

/-- **Over a run whole requests go out**, and behind them at most a part of one. The induction is on
the operations; behind a request that is cut off nothing goes out any more. -/
theorem after_sends (operations : List Operation) (s : Session (Tapped τ) κ) :
    s.Sends (gather Operation.sent operations s) (gather Operation.cutOff operations s)
      (after operations s) := by
  induction operations generalizing s with
  | nil => exact .none rfl
  | cons op operations ih =>
    have hrun := op.run_sends s
    rw [gather, gather]
    -- the operation has sent all it had, and the rest of the run goes on from there
    by_cases hcut : op.cutOff s = []
    · rw [hcut] at hrun ⊢
      exact hrun.trans (ih _)
    -- the request was cut off and the session has ended, so the rest of the run sends nothing
    · have hclosed := hrun.closed hcut
      obtain ⟨hends, htransport⟩ := after_of_closed hclosed operations
      rw [gather_of_closed (fun op _ => op.sent_of_closed) hclosed,
        gather_of_closed (fun op _ => op.cutOff_of_closed) hclosed, List.append_nil,
        List.append_nil]
      refine ⟨?_, fun _ => hends⟩
      show ∃ tail, (after operations (op.run s).2).transport.accepted = _ ∧ _
      rw [htransport]
      exact hrun.accepted

omit [Capability κ] in
theorem cutOff_mapTransport {σ : Type} [Transport σ] {f : σ → τ} (hf : Transport.Respects f)
    (op : Operation) (s : Session σ κ) : op.cutOff (s.mapTransport f) = op.cutOff s := by
  have hclosed : (s.mapTransport f).closed = s.closed := rfl
  unfold Operation.cutOff
  rw [hclosed]
  cases op.request? with
  | none => rfl
  | some r =>
    simp only [agrees_sendRequest hf r s]
    rcases sendRequest r s with ⟨e | u, s'⟩ <;> rfl

/-- **Only whole requests go out.** Take any run over any transport, and the same run over this
transport with a tap. The two do the same. The bytes that the transport has accepted are the
encodings of the requests that were sent, in their order, and nothing else, unless a request was cut
off: then a part of this one request is behind them, not all of it, and the session has ended. A
session that has ended leaves its transport alone, whatever operations follow. -/
theorem accepted_after (transport : τ) (config : Config) (own : Option (CapabilityTable κ))
    (shared : CapabilityTable κ) (operations : List Operation) :
    let plain := create transport config own shared
    let tapped := create (⟨transport, []⟩ : Tapped τ) config own shared
    let s := after operations tapped
    s.mapTransport Tapped.inner = after operations plain ∧
    (∃ tail, s.transport.accepted =
        (gather Operation.sent operations plain).flatMap Request.encode ++ tail ∧
      ((gather Operation.cutOff operations plain = [] ∧ tail = []) ∨
        ∃ r, gather Operation.cutOff operations plain = [r] ∧
          tail <+: r.encode ∧ tail ≠ r.encode ∧ s.closed = true)) ∧
    (s.closed = true → ∀ later, (after later s).transport = s.transport) := by
  intro plain tapped s
  have hplain : tapped.mapTransport Tapped.inner = plain := rfl
  -- the tap does not change what a session does, so the requests are those of the plain run
  have hsent : gather Operation.sent operations plain = gather Operation.sent operations tapped :=
    gather_mapTransport Tapped.respects_inner (sent_mapTransport Tapped.respects_inner) operations
      tapped
  have hcut :
      gather Operation.cutOff operations plain = gather Operation.cutOff operations tapped :=
    gather_mapTransport Tapped.respects_inner (cutOff_mapTransport Tapped.respects_inner) operations
      tapped
  have hsends : tapped.Sends _ _ s := after_sends operations tapped
  refine ⟨?_, ?_, fun hclosed later => (after_of_closed hclosed later).2⟩
  · rw [← hplain, after_mapTransport Tapped.respects_inner]
  · rw [hsent, hcut]
    obtain ⟨tail, haccepted, hnone | ⟨r, hr, hfront, hproper⟩⟩ := hsends.accepted
    · exact ⟨tail, haccepted, .inl hnone⟩
    · have hends := hsends.closed (by rw [hr]; exact List.cons_ne_nil r [])
      exact ⟨tail, haccepted, .inr ⟨r, hr, hfront, hproper, hends⟩⟩

end Session

end BoardLink
