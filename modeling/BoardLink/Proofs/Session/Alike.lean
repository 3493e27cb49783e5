import BoardLink.Proofs.Session.Steps

/-!
# Sessions over transports that behave alike

A session sees of its transport what `send`, `receive` and `canReceive` say, and nothing else. So if
two transports say the same, two sessions over them do the same, step by step, and only what the
transports keep for themselves can differ. This is stated for a map `f` between the states of the
transports (`Transport.Respects`).

* `Session.Agrees` — two steps have the same result, and leave the same session up to `f`;
* `Session.agrees_sendAll`, `Session.agrees_awaitAnswer` — the two loops;
* `Session.after_mapTransport` — so whole runs agree.
-/

namespace BoardLink

open BoardLink.Wire

/-- **A map between transports that a session does not notice.** -/
structure Transport.Respects {σ τ : Type} [Transport σ] [Transport τ] (f : σ → τ) : Prop where
  send_eq (t : σ) (offered : Bytes) :
    Transport.send (f t) offered = ((Transport.send t offered).1, f (Transport.send t offered).2)
  receive_eq (t : σ) (size : Nat) :
    Transport.receive (f t) size = ((Transport.receive t size).1, f (Transport.receive t size).2)
  canReceive_eq (t : σ) : Transport.canReceive (f t) = Transport.canReceive t

namespace Session

variable {σ τ κ α β : Type}

/-- The session over another transport. -/
def mapTransport (f : σ → τ) (s : Session σ κ) : Session τ κ :=
  { s with transport := f s.transport }

/-- **Two steps that agree up to `f`**: the results are the same, and so are the sessions but for
their transports. -/
def Agrees (f : σ → τ) (x : SessionM σ κ α) (y : SessionM τ κ α) : Prop :=
  ∀ s, y (s.mapTransport f) = ((x s).1, (x s).2.mapTransport f)

namespace Agrees

variable {f : σ → τ}

theorem bind {x : SessionM σ κ α} {y : SessionM τ κ α} {g : α → SessionM σ κ β}
    {h : α → SessionM τ κ β} (hx : Agrees f x y) (hg : ∀ a, Agrees f (g a) (h a)) :
    Agrees f (x >>= g) (y >>= h) := by
  intro s
  rw [SessionM.bind_apply, SessionM.bind_apply, hx s]
  rcases x s with ⟨e | a, s'⟩
  · rfl
  · exact hg a s'

theorem map {x : SessionM σ κ α} {y : SessionM τ κ α} (g : α → β) (hx : Agrees f x y) :
    Agrees f (g <$> x) (g <$> y) := by
  intro s
  rw [SessionM.map_apply, SessionM.map_apply, hx s]

end Agrees

/-! ### Steps that leave the transport alone -/

section AnyMap

variable (f : σ → τ)

theorem wake_mapTransport (s : Session σ κ) : (s.mapTransport f).wake = s.wake.mapTransport f := by
  -- whether the hook is installed is not up to the transport
  rw [wake, wake, apply_ite (mapTransport f)]
  rfl

theorem adopt_mapTransport (s : Session σ κ) (r : Registry κ) :
    (s.mapTransport f).adopt r = (s.adopt r).mapTransport f := by
  unfold adopt
  simp only [apply_ite (mapTransport f), ← wake_mapTransport]
  rfl

theorem close_mapTransport (s : Session σ κ) :
    (s.mapTransport f).close = s.close.mapTransport f := by
  unfold close shutDown
  simp only [apply_ite (mapTransport f), ← adopt_mapTransport]
  rfl

theorem agrees_fail (e : SessionError) :
    Agrees (κ := κ) (α := α) f (fun s => fail e s) (fun s => fail e s) := by
  intro s
  simp only [fail, apply_ite (mapTransport f), close_mapTransport]

theorem agrees_ensureOpen : Agrees (κ := κ) f ensureOpen ensureOpen := by
  intro s
  cases hclosed : s.closed with
  | true => rw [ensureOpen_of_closed hclosed, ensureOpen_of_closed (s := s.mapTransport f) hclosed]
  | false => rw [ensureOpen_of_open hclosed, ensureOpen_of_open (s := s.mapTransport f) hclosed]

variable [Capability κ]

theorem foldl_dispatch_mapTransport (s : Session σ κ) (packets : List Packet) :
    packets.foldl dispatch (s.mapTransport f) = (packets.foldl dispatch s).mapTransport f := by
  induction packets generalizing s with
  -- both have the same registry and the same queues, so a packet does the same to them
  | nil => rfl
  | cons p packets ih =>
    have hstep : (s.mapTransport f).dispatch p = (s.dispatch p).mapTransport f := by
      cases p <;> rfl
    rw [List.foldl_cons, List.foldl_cons, hstep, ih]

theorem dispatchAll_mapTransport (s : Session σ κ) (packets : List Packet) :
    (s.mapTransport f).dispatchAll packets = (s.dispatchAll packets).mapTransport f := by
  unfold dispatchAll
  simp only [apply_ite (mapTransport f), ← wake_mapTransport, foldl_dispatch_mapTransport]
  rfl

theorem hear_mapTransport (data : Bytes) (s : Session σ κ) :
    (s.mapTransport f).hear data = (s.hear data).mapTransport f :=
  dispatchAll_mapTransport f { s with inbox := (s.inbox.feed data).drain.2 } _

/-- What is delivered concerns the inbox, and both sessions have the same one. -/
theorem agrees_deliver (data : Bytes) : Agrees (κ := κ) f (deliver data) (deliver data) := by
  intro s
  have hinbox : (s.mapTransport f).inbox = s.inbox := rfl
  rw [deliver_eq, deliver_eq, hear_mapTransport, hinbox]
  cases (s.inbox.feed data).drain.1.fault with
  | none => rfl
  | some fault => exact agrees_fail f (SessionError.ofFault fault) (s.hear data)

end AnyMap

/-! ### The loops -/

variable [Transport σ] [Transport τ] {f : σ → τ}

theorem send_mapTransport (hf : Transport.Respects f) (s : Session σ κ) (offered : Bytes) :
    Transport.send (s.mapTransport f).transport offered =
      ((Transport.send s.transport offered).1, f (Transport.send s.transport offered).2) :=
  hf.send_eq s.transport offered

theorem receive_mapTransport (hf : Transport.Respects f) (s : Session σ κ) :
    Transport.receive (s.mapTransport f).transport (s.mapTransport f).config.bufferSize =
      ((Transport.receive s.transport s.config.bufferSize).1,
        f (Transport.receive s.transport s.config.bufferSize).2) :=
  hf.receive_eq s.transport s.config.bufferSize

theorem canReceive_mapTransport (hf : Transport.Respects f) (s : Session σ κ) :
    Transport.canReceive (s.mapTransport f).transport = Transport.canReceive s.transport :=
  hf.canReceive_eq s.transport

/-- The send loops agree: in each turn both transports accept the same number of bytes, or fail in
the same way. -/
theorem agrees_sendAll (hf : Transport.Respects f) (bytes : Bytes) :
    Agrees (κ := κ) f (sendAll bytes) (sendAll bytes) := by
  intro s
  fun_induction sendAll bytes s with
  | case1 s => rw [sendAll]
  | case2 s b rest transport hsend =>
    -- nothing is accepted, by both
    rw [sendAll_cons, send_mapTransport hf, hsend]
    exact agrees_fail f .connectionClosed { s with transport }
  | case3 s b rest n transport hsend ih =>
    -- some bytes are accepted, and the loop goes on with the rest of them
    rw [sendAll_cons, send_mapTransport hf, hsend]
    exact ih
  | case4 s b rest fault transport hsend hinterrupted hpatience ih =>
    -- an interruption is tried again
    rw [sendAll_cons, send_mapTransport hf, hsend]
    exact (if_pos hinterrupted).trans ih
  | case5 s b rest fault transport hsend hfatal =>
    -- any other fault ends both sessions
    rw [sendAll_cons, send_mapTransport hf, hsend]
    exact (if_neg hfatal).trans (agrees_fail f (.io fault) { s with transport })

theorem agrees_sendRequest (hf : Transport.Respects f) (r : Request) :
    Agrees (κ := κ) f (sendRequest r) (sendRequest r) :=
  (agrees_ensureOpen f).bind fun _ => agrees_sendAll hf r.encode

variable [Capability κ]

theorem agrees_receiveMore (hf : Transport.Respects f) (tolerate : Bool) :
    Agrees (κ := κ) f (receiveMore tolerate) (receiveMore tolerate) := by
  intro s
  unfold receiveMore
  rw [receive_mapTransport hf]
  -- both transports have delivered the same
  rcases Transport.receive s.transport s.config.bufferSize with
    ⟨fault | (_ | ⟨b, data⟩), transport⟩
  · -- a fault of the transport: some are tolerated, and any other ends both sessions
    simp only
    split
    · rfl
    · split
      · rfl
      · exact agrees_fail f (.io fault) { s with transport }
  · -- the end of the stream
    exact agrees_fail f .connectionClosed { s with transport }
  · -- data, which concerns the inbox only
    have hdeliver := agrees_deliver f (b :: data) { s with transport }
    rw [mapTransport] at hdeliver
    simp only [mapTransport, hdeliver]
    rcases deliver (b :: data) { s with transport } with ⟨e | u, s'⟩ <;> rfl

/-- The waits agree. The induction follows the receives of the first session. -/
theorem agrees_awaitAnswer (hf : Transport.Respects f) :
    Agrees (κ := κ) f awaitAnswer awaitAnswer := by
  intro s
  fun_induction awaitAnswer s with
  | case1 s a answers ha =>
    -- an answer is there already, and it is the same one
    have ha' : (s.mapTransport f).answers = a :: answers := ha
    rw [awaitAnswer_of_answers ha']
    rfl
  | case2 s hnone hcan e s' hreceive =>
    -- the receive of the first session fails, so that of the other one fails with the same error
    have hnone' : (s.mapTransport f).answers = [] := hnone
    rw [awaitAnswer_of_none hnone', canReceive_mapTransport hf, if_pos hcan,
      agrees_receiveMore hf false, hreceive]
  | case3 s hnone hcan n s' hreceive hpatience ih =>
    -- it brings something, maybe without an answer, and the wait goes on
    have hnone' : (s.mapTransport f).answers = [] := hnone
    rw [awaitAnswer_of_none hnone', canReceive_mapTransport hf, if_pos hcan,
      agrees_receiveMore hf false, hreceive]
    exact ih
  | case4 s hnone hcan =>
    -- neither has a data source
    have hnone' : (s.mapTransport f).answers = [] := hnone
    rw [awaitAnswer_of_none hnone', canReceive_mapTransport hf, if_neg hcan]

/-! ### Operations and runs -/

theorem agrees_waitForAnswer (hf : Transport.Respects f) :
    Agrees (κ := κ) f waitForAnswer waitForAnswer :=
  (agrees_ensureOpen f).bind fun _ => agrees_awaitAnswer hf

theorem agrees_call (hf : Transport.Respects f) (r : Request) :
    Agrees (κ := κ) f (call r) (call r) :=
  (agrees_sendRequest hf r).bind fun _ => agrees_waitForAnswer hf

theorem agrees_pollEvents (hf : Transport.Respects f) :
    Agrees (κ := κ) f pollEvents pollEvents := by
  intro s
  cases hclosed : s.closed with
  | true =>
    -- a session that has ended does not ask its transport at all
    have hclosed' : (s.mapTransport f).closed = true := hclosed
    rw [pollEvents, pollEvents, ensureOpen_bind_of_closed hclosed,
      ensureOpen_bind_of_closed hclosed']
  | false =>
    have hclosed' : (s.mapTransport f).closed = false := hclosed
    rw [pollEvents_apply hclosed, pollEvents_apply hclosed', canReceive_mapTransport hf]
    split
    · exact ((agrees_receiveMore hf true).bind fun _ => fun _ => rfl) s
    · rfl

omit [Transport σ] [Transport τ] in
theorem settle_mapTransport (f : σ → τ) (result : Except SessionError Reply) (s : Session σ κ) :
    (s.mapTransport f).settle result = (s.settle result).mapTransport f := by
  unfold settle
  split
  · exact adopt_mapTransport f s _
  · rfl

end Session

theorem Call.agrees_run {σ τ κ : Type} [Transport σ] [Transport τ] [Capability κ] {f : σ → τ}
    (hf : Transport.Respects f) (c : Call) : Session.Agrees (κ := κ) f c.run c.run := by
  intro s
  rw [c.run_eq, c.run_eq]
  cases c.request with
  | error e => rfl
  | ok r =>
    -- behind the exchange there is no transport left to ask
    simp only [Session.agrees_call hf r s]
    rcases Session.call r s with ⟨e | a, s'⟩
    · rfl
    · exact Prod.ext rfl (Session.settle_mapTransport f _ _)

/-- **Whatever an operation does, it does over both transports.** -/
theorem Operation.agrees_run {σ τ κ : Type} [Transport σ] [Transport τ] [Capability κ] {f : σ → τ}
    (hf : Transport.Respects f) (op : Operation) : Session.Agrees (κ := κ) f op.run op.run := by
  cases op with
  | call c => exact c.agrees_run hf
  | exchange r => exact (Session.agrees_call hf r).map _
  | send r => exact (Session.agrees_sendRequest hf r).map _
  | await => exact (Session.agrees_waitForAnswer hf).map _
  | poll => exact (Session.agrees_pollEvents hf).map _
  | feed data =>
    exact ((Session.agrees_ensureOpen f).bind fun _ => Session.agrees_deliver f data).map _
  | take | setHook => exact fun _ => rfl
  | close => exact fun s => Prod.ext rfl (Session.close_mapTransport f s)

namespace Session

variable {σ τ κ α : Type} [Transport σ] [Transport τ] [Capability κ] {f : σ → τ}

/-- **Runs over transports that behave alike agree.** -/
theorem after_mapTransport (hf : Transport.Respects f) (operations : List Operation)
    (s : Session σ κ) :
    after operations (s.mapTransport f) = (after operations s).mapTransport f := by
  induction operations generalizing s with
  | nil => rfl
  | cons op operations ih =>
    -- written out since the rewrite is inside of the fold
    calc after (op :: operations) (s.mapTransport f)
        = after operations (op.run (s.mapTransport f)).2 := rfl
      _ = after operations ((op.run s).2.mapTransport f) := by rw [op.agrees_run hf s]
      _ = (after operations (op.run s).2).mapTransport f := ih _

/-- What operations contribute to a record of the run is the same if it is the same for each. -/
theorem gather_mapTransport (hf : Transport.Respects f)
    {record : Operation → Session τ κ → List α} {record' : Operation → Session σ κ → List α}
    (hrecord : ∀ op s, record op (s.mapTransport f) = record' op s) (operations : List Operation)
    (s : Session σ κ) :
    gather record operations (s.mapTransport f) = gather record' operations s := by
  induction operations generalizing s with
  | nil => rfl
  | cons op operations ih => rw [gather, gather, hrecord, op.agrees_run hf s, ih]

omit [Capability κ] in
/-- The same requests are sent. -/
theorem sent_mapTransport (hf : Transport.Respects f) (op : Operation) (s : Session σ κ) :
    op.sent (s.mapTransport f) = op.sent s := by
  unfold Operation.sent
  cases op.request? with
  | none => rfl
  | some r =>
    simp only [agrees_sendRequest hf r s]
    rcases sendRequest r s with ⟨e | u, s'⟩ <;> rfl

end Session

end BoardLink
