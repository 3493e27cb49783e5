import BoardLink.Proofs.Session.Queued
import BoardLink.Proofs.Session.Runs

/-!
# What an operation can do

An operation on an open session first takes what arrives while it runs, piece by piece, and then does
one thing with the session that it has got (`Operation.run_makes`). Which things there are is said
once, in `Operation.Makes`: the session ends with a fatal error, an answer is taken off the queue,
the notifications are handed out, and so on. On a session that has ended an operation does nothing
(`Operation.run_idles`).

What is true of all runs is proved from these two, by the cases of `Operation.Makes`.

* `Session.Takes` — what a session becomes by the pieces that are delivered to it;
* `Session.awaits_awaitAnswer` — the crux: a session that waits takes pieces until there is an
  answer, a fatal error or no way to receive, and nothing else can come of it.
-/

namespace BoardLink

open BoardLink.Wire

/-! ### Pieces of a stream -/

namespace Wire.Inbox

/-- The packets that an inbox yields, if it is drained after each piece of what arrives. -/
def packetsIn (i : Inbox) (pieces : List Bytes) : List Packet :=
  (i.drainPieces pieces).1.flatMap (·.packets)

theorem drainPieces_append (i : Inbox) (pieces later : List Bytes) :
    i.drainPieces (pieces ++ later) =
      ((i.drainPieces pieces).1 ++ ((i.drainPieces pieces).2.drainPieces later).1,
        ((i.drainPieces pieces).2.drainPieces later).2) := by
  induction pieces generalizing i with
  | nil => rfl
  | cons piece pieces ih =>
    -- what is left of the inbox behind the first piece is where the others are fed to
    rw [List.cons_append, drainPieces, drainPieces]
    simp only [ih, List.cons_append]

theorem packetsIn_append (i : Inbox) (pieces later : List Bytes) :
    i.packetsIn (pieces ++ later) =
      i.packetsIn pieces ++ (i.drainPieces pieces).2.packetsIn later := by
  rw [packetsIn, drainPieces_append, List.flatMap_append]
  rfl

theorem packetsIn_singleton (i : Inbox) (piece : Bytes) :
    i.packetsIn [piece] = (i.feed piece).drain.1.packets := by
  rw [packetsIn, drainPieces]
  exact List.append_nil _

end Wire.Inbox

namespace Wire

theorem answersIn_append (packets later : List Packet) :
    answersIn (packets ++ later) = answersIn packets ++ answersIn later :=
  List.filterMap_append

theorem eventsIn_append (packets later : List Packet) :
    eventsIn (packets ++ later) = eventsIn packets ++ eventsIn later :=
  List.filterMap_append

end Wire

namespace Session

variable {τ κ : Type}

/-- What packets queue is what some of them queue and then the others. -/
theorem itemsIn_append [Capability κ] (r : Registry κ) (packets later : List Packet) :
    itemsIn r (packets ++ later) =
      itemsIn r packets + itemsIn (r.applyAll (eventsIn packets)) later := by
  simp only [itemsIn, answersIn_append, eventsIn_append, Registry.told_append, List.length_append]
  omega

theorem settle_eq [Capability κ] (result : Except SessionError Reply) (s : Session τ κ) :
    ∃ registry hook queued, s.settle result =
      { s with registry := registry, hook := hook, queued := queued } := by
  unfold settle
  split
  next serials =>
    obtain ⟨hook, queued, hadopt⟩ := adopt_eq s (s.registry.reconcile serials)
    exact ⟨_, hook, queued, hadopt⟩
  · exact ⟨s.registry, s.hook, s.queued, rfl⟩

/-! ### Steps that can end the session -/

/-- **The outcome of a step that got as far as `s₁`.** It succeeded and left `s₁` as it is, or it
failed with a fatal error and closed it. -/
inductive Leaves {α : Type} (s₁ : Session τ κ) : Except SessionError α × Session τ κ → Prop
  | ok (a : α) : Leaves s₁ (.ok a, s₁)
  | fatal {e : SessionError} (he : e.isFatal = true) : Leaves s₁ (.error e, s₁.close)

theorem Leaves.of_fail {α : Type} {e : SessionError} (he : e.isFatal = true) (s₁ : Session τ κ) :
    Leaves s₁ (fail e s₁ : Except SessionError α × Session τ κ) := by
  rw [fail, if_pos he]
  exact .fatal he

theorem isFatal_ofFault (fault : Fault) : (SessionError.ofFault fault).isFatal = true := by
  cases fault <;> rfl

theorem leaves_sendAll [Transport τ] (bytes : Bytes) (s : Session τ κ) :
    ∃ transport, Leaves { s with transport } (sendAll bytes s) := by
  -- every way out of the loop is a success, or a fault that `fail` is called with
  fun_induction sendAll bytes s with
  | case1 s => exact ⟨s.transport, .ok ()⟩
  | case2 s b rest transport hsend => exact ⟨transport, .of_fail rfl _⟩
  | case3 s b rest n transport hsend ih => exact ih
  | case4 s b rest fault transport hsend hinterrupted hpatience ih => exact ih
  | case5 s b rest fault transport hsend hfatal => exact ⟨transport, .of_fail rfl _⟩

theorem leaves_sendRequest [Transport τ] {s : Session τ κ} (hopen : s.closed = false)
    (r : Request) : ∃ transport, Leaves { s with transport } (sendRequest r s) := by
  rw [sendRequest_of_open hopen]
  exact leaves_sendAll r.encode s

/-! ### Taking what arrives -/

variable [Capability κ]

/-- **`s'` is `s` once `pieces` have been delivered to it**, one after the other: the answers in them
were queued, the registry has applied the events, and the rest was counted. The transport may be in
another state, and the hook may have been run. -/
structure Takes (s : Session τ κ) (pieces : List Bytes) (s' : Session τ κ) : Prop where
  config : s'.config = s.config
  closed : s'.closed = s.closed
  inbox : s'.inbox = (s.inbox.drainPieces pieces).2
  answers : s'.answers = s.answers ++ answersIn (s.inbox.packetsIn pieces)
  registry : s'.registry = s.registry.applyAll (eventsIn (s.inbox.packetsIn pieces))
  unknownRcodes : s'.unknownRcodes =
    s.unknownRcodes + (s.inbox.packetsIn pieces).countP (·.isUnknown)
  queues : s.Queues (itemsIn s.registry (s.inbox.packetsIn pieces)) s'

namespace Takes

variable {s s' s'' : Session τ κ} {pieces later : List Bytes}

/-- Nothing was delivered. -/
theorem none (s : Session τ κ) (transport : τ) : Takes s [] { s with transport } where
  config := rfl
  closed := rfl
  inbox := rfl
  answers := (List.append_nil _).symm
  registry := rfl
  unknownRcodes := rfl
  queues := .none rfl rfl

theorem trans (h : Takes s pieces s') (h' : Takes s' later s'') : Takes s (pieces ++ later) s'' where
  config := h'.config.trans h.config
  closed := h'.closed.trans h.closed
  -- what is in the later pieces depends on what the first ones have left in the inbox
  inbox := by rw [h'.inbox, h.inbox, Inbox.drainPieces_append]
  answers := by
    rw [h'.answers, h.answers, h.inbox, Inbox.packetsIn_append, answersIn_append, List.append_assoc]
  registry := by
    rw [h'.registry, h.registry, h.inbox, Inbox.packetsIn_append, eventsIn_append,
      Registry.applyAll_append]
  unknownRcodes := by
    rw [h'.unknownRcodes, h.unknownRcodes, h.inbox, Inbox.packetsIn_append, List.countP_append,
      Nat.add_assoc]
  queues := by
    have hqueues := h.queues.trans h'.queues
    rw [h.registry, h.inbox] at hqueues
    rwa [Inbox.packetsIn_append, itemsIn_append]

end Takes

/-- To take over the packets that a piece completes is to take the piece. -/
theorem Takes.of_hear (s : Session τ κ) (data : Bytes) :
    Takes s [data] (s.hear data) := by
  have hpackets := s.inbox.packetsIn_singleton data
  unfold hear
  -- the session with the fed inbox, which the packets are dispatched from
  generalize hfed : ({ s with inbox := (s.inbox.feed data).drain.2 } : Session τ κ) = fed
  obtain ⟨hook, hall⟩ := dispatchAll_eq fed (s.inbox.feed data).drain.1.packets
  obtain ⟨hconfig, hclosed, hinbox, hanswers, hregistry⟩ :=
    foldl_dispatch fed (s.inbox.feed data).drain.1.packets
  obtain ⟨-, hunknown, -⟩ := foldl_dispatch_counts fed (s.inbox.feed data).drain.1.packets
  have hqueues := queues_dispatchAll fed (s.inbox.feed data).drain.1.packets
  rw [← hpackets] at hall hinbox hanswers hconfig hclosed hregistry hunknown hqueues ⊢
  -- the hook has run or not, and none of the other fields knows of it
  rw [hall] at hqueues ⊢
  subst hfed
  exact ⟨hconfig, hclosed, hinbox, hanswers, hregistry, hunknown,
    ⟨hqueues.queued, hqueues.installed, hqueues.woken, hqueues.idle⟩⟩

/-- A delivery takes its piece. If the stream has a fault there, it is fatal. -/
theorem leaves_deliver (data : Bytes) (s : Session τ κ) :
    ∃ s₁, Takes s [data] s₁ ∧ Leaves s₁ (deliver data s) := by
  refine ⟨_, Takes.of_hear s data, ?_⟩
  rw [deliver_eq]
  split
  · -- no fault in the stream, so the delivery succeeds with what it has taken
    exact .ok ()
  next fault hfault => exact .of_fail (isFatal_ofFault fault) _

variable [Transport τ]

/-- The piece that the transport delivers if the session receives now, if it delivers one. -/
def piece (s : Session τ κ) : List Bytes :=
  match s.arriving with
  | [] => []
  | b :: data => [b :: data]

/-- **A receive takes the piece that arrives.** What it does not survive is fatal. -/
theorem leaves_receiveMore {s : Session τ κ} (hcan : Transport.canReceive s.transport = true)
    (tolerate : Bool) : ∃ s₁, Takes s s.piece s₁ ∧ Leaves s₁ (receiveMore tolerate s) := by
  unfold receiveMore
  rcases hreceive : Transport.receive s.transport s.config.bufferSize with
    ⟨fault | (_ | ⟨b, data⟩), transport⟩
  · -- a fault of the transport, which brings no piece, be it tolerated or not
    have hpiece : s.piece = [] := by rw [piece, arriving, if_pos hcan, hreceive]
    rw [hpiece]
    refine ⟨_, Takes.none s transport, ?_⟩
    simp only
    split
    · exact .ok 0
    · split
      · exact .ok 0
      · exact .of_fail rfl _
  · -- the end of the stream, which brings none either
    have hpiece : s.piece = [] := by rw [piece, arriving, if_pos hcan, hreceive]
    rw [hpiece]
    exact ⟨_, Takes.none s transport, .of_fail rfl _⟩
  · -- a piece, and then it is up to what is in it
    have hpiece : s.piece = [b :: data] := by rw [piece, arriving, if_pos hcan, hreceive]
    rw [hpiece]
    obtain ⟨s₁, htakes, hleaves⟩ := leaves_deliver (b :: data) { s with transport }
    refine ⟨s₁, (Takes.none s transport).trans htakes, ?_⟩
    simp only
    generalize deliver (b :: data) { s with transport } = outcome at hleaves
    cases hleaves with
    | ok => exact .ok _
    | fatal he => exact .fatal he

/-! ### Waiting for an answer -/

/-- The pieces that the transport delivers until the session has an answer, or fails to get one. -/
def awaitedPieces (s : Session τ κ) : List Bytes :=
  match s.answers with
  | _ :: _ => []
  | [] =>
    if Transport.canReceive s.transport then
      match h : receiveMore false s with
      | (.error _, _) => s.piece
      | (.ok _, s') =>
        have := receivePatience_receiveMore h
        s.piece ++ awaitedPieces s'
    else []
termination_by Transport.receivePatience s.transport

/-- **The outcome of a wait that got as far as `s₁`.** The oldest answer is taken, or there is none
and no way to receive one, or the session ended. -/
inductive Awaits (s₁ : Session τ κ) : Except SessionError Answer × Session τ κ → Prop
  | answer {a : Answer} {answers : List Answer} (ha : s₁.answers = a :: answers) :
    Awaits s₁ (answerOutcome a, { s₁ with answers })
  | starved (hnone : s₁.answers = []) (hcan : Transport.canReceive s₁.transport = false) :
    Awaits s₁ (.error .noDataSource, s₁)
  | fatal {e : SessionError} (he : e.isFatal = true) : Awaits s₁ (.error e, s₁.close)

theorem awaitedPieces_of_answer {s : Session τ κ} {a : Answer} {answers : List Answer}
    (ha : s.answers = a :: answers) : s.awaitedPieces = [] := by
  rw [awaitedPieces]
  split
  · rfl
  next hnone => rw [ha] at hnone; cases hnone

theorem awaitedPieces_of_none {s : Session τ κ} (hnone : s.answers = []) : s.awaitedPieces =
    if Transport.canReceive s.transport then
      s.piece ++ match receiveMore false s with
        | (.error _, _) => []
        | (.ok _, s') => s'.awaitedPieces
    else [] := by
  rw [awaitedPieces]
  split
  next hsome => rw [hnone] at hsome; cases hsome
  · -- both sides wait on in the session behind the receive
    congr 1
    split <;> rename_i hmore <;> simp [hmore]

omit [Capability κ] in
theorem flatten_piece (s : Session τ κ) : s.piece.flatten = s.arriving := by
  unfold piece
  split
  next hnone => rw [hnone]; rfl
  next hsome => rw [hsome]; exact List.append_nil _

/-- The pieces are those of the bytes that are awaited. -/
theorem flatten_awaitedPieces (s : Session τ κ) : s.awaitedPieces.flatten = s.awaited := by
  fun_induction awaited s with
  | case1 s a answers ha =>
    rw [awaitedPieces_of_answer ha]
    rfl
  | case2 s hnone hcan e s' hmore =>
    rw [awaitedPieces_of_none hnone, if_pos hcan, hmore, List.append_nil, flatten_piece]
  | case3 s hnone hcan n s' hmore hpatience ih =>
    rw [awaitedPieces_of_none hnone, if_pos hcan, hmore, List.flatten_append, flatten_piece, ih]
  | case4 s hnone hcan =>
    rw [awaitedPieces_of_none hnone, if_neg hcan]
    rfl

/-- **A session that waits takes pieces until something comes of it.** The induction follows the
receives; each one that goes on has taken its piece. -/
theorem awaits_awaitAnswer (s : Session τ κ) :
    ∃ s₁, Takes s s.awaitedPieces s₁ ∧ Awaits s₁ (awaitAnswer s) := by
  fun_induction awaitAnswer s with
  | case1 s a answers ha =>
    -- an answer is there already, and nothing is received
    rw [awaitedPieces_of_answer ha]
    exact ⟨s, Takes.none s s.transport, .answer ha⟩
  | case2 s hnone hcan e s' hmore =>
    -- the receive fails, but a violation in its piece comes with packets in front of it
    obtain ⟨s₁, htakes, hleaves⟩ := leaves_receiveMore hcan false
    rw [awaitedPieces_of_none hnone, if_pos hcan, hmore, List.append_nil]
    rw [hmore] at hleaves
    cases hleaves with
    | fatal he => exact ⟨s₁, htakes, .fatal he⟩
  | case3 s hnone hcan n s' hmore hpatience ih =>
    obtain ⟨s₁, htakes, hleaves⟩ := leaves_receiveMore hcan false
    rw [awaitedPieces_of_none hnone, if_pos hcan, hmore]
    rw [hmore] at hleaves
    cases hleaves with
    | ok =>
      -- the receive brings no answer yet, or one that the next turn finds
      obtain ⟨s₂, hlater, hawaits⟩ := ih
      exact ⟨s₂, htakes.trans hlater, hawaits⟩
  | case4 s hnone hcan =>
    rw [awaitedPieces_of_none hnone, if_neg hcan]
    exact ⟨s, Takes.none s s.transport, .starved hnone (Bool.eq_false_of_not_eq_true hcan)⟩

/-- The pieces that arrive while a request is exchanged for its answer. -/
def exchangePieces (r : Request) (s : Session τ κ) : List Bytes :=
  match sendRequest r s with
  | (.ok _, s') => s'.awaitedPieces
  | (.error _, _) => []

/-- An exchange is a wait behind a request, unless the request ends the session. -/
theorem awaits_call {s : Session τ κ} (hopen : s.closed = false) (r : Request) :
    ∃ s₁, Takes s (s.exchangePieces r) s₁ ∧ Awaits s₁ (call r s) := by
  obtain ⟨transport, hleaves⟩ := leaves_sendRequest hopen r
  rw [call, SessionM.bind_apply, exchangePieces]
  generalize sendRequest r s = outcome at hleaves
  cases hleaves with
  | ok u =>
    -- sending has used the transport and nothing else
    have hopen' : ({ s with transport } : Session τ κ).closed = false := hopen
    simp only [waitForAnswer_of_open hopen']
    obtain ⟨s₁, htakes, hawaits⟩ := awaits_awaitAnswer ({ s with transport } : Session τ κ)
    exact ⟨s₁, (Takes.none s transport).trans htakes, hawaits⟩
  | fatal he => exact ⟨_, Takes.none s transport, .fatal he⟩

theorem pollEvents_apply {s : Session τ κ} (hopen : s.closed = false) : pollEvents s =
    if Transport.canReceive s.transport then
      (receiveMore true >>= fun _ => modifyGet takeNotifications : SessionM τ κ _) s
    else (.ok s.takeNotifications.1, s.takeNotifications.2) := by
  -- reading the state changes nothing, so the poll is a receive under a condition
  have hget : (MonadState.get : SessionM τ κ (Session τ κ)) s = (.ok s, s) := rfl
  rw [pollEvents, ensureOpen_bind_of_open hopen]
  simp only [SessionM.bind_apply, hget]
  cases Transport.canReceive s.transport with
  | true => exact SessionM.bind_apply _ _ s
  | false => rfl

/-- A poll is a receive, if the transport can receive, and then hands out the notifications. -/
theorem pollEvents_of_open {s : Session τ κ} (hopen : s.closed = false) :
    ∃ s₁, Takes s s.piece s₁ ∧
      ((∃ e, e.isFatal = true ∧ pollEvents s = (.error e, s₁.close)) ∨
        pollEvents s = (.ok s₁.takeNotifications.1, s₁.takeNotifications.2)) := by
  rw [pollEvents_apply hopen]
  by_cases hcan : Transport.canReceive s.transport = true
  · rw [if_pos hcan]
    obtain ⟨s₁, htakes, hleaves⟩ := leaves_receiveMore hcan true
    refine ⟨s₁, htakes, ?_⟩
    rw [SessionM.bind_apply]
    generalize receiveMore true s = outcome at hleaves
    cases hleaves with
    | ok n => exact .inr rfl
    | fatal he => exact .inl ⟨_, he, rfl⟩
  · -- nothing can arrive
    have hpiece : s.piece = [] := by rw [piece, arriving, if_neg hcan]
    rw [if_neg hcan, hpiece]
    exact ⟨s, Takes.none s s.transport, .inr rfl⟩

end Session

/-! ### Operations -/

namespace Operation

variable {τ κ : Type} [Transport τ] [Capability κ]

/-- The request that an operation sends, if it sends one. -/
def request? : Operation → Option Request
  | .call c => c.request.toOption
  | .exchange r | .send r => some r
  | .await | .poll | .feed _ | .take | .close | .setHook => none

/-- The request that an operation does send, as a whole. -/
def sent (op : Operation) (s : Session τ κ) : List Request :=
  match op.request? with
  | none => []
  | some r =>
    match Session.sendRequest r s with
    | (.ok _, _) => [r]
    | (.error _, _) => []

/-- The pieces that arrive while an operation runs, from the transport or as what is fed. -/
def pieces (op : Operation) (s : Session τ κ) : List Bytes :=
  if s.closed then [] else
  match op with
  | .call c =>
    match c.request with
    | .ok r => s.exchangePieces r
    | .error _ => []
  | .exchange r => s.exchangePieces r
  | .await => s.awaitedPieces
  | .poll => s.piece
  | .feed data => [data]
  | .send _ | .take | .close | .setHook => []

/-- **What an operation can do with a session `s₁`** that has taken what arrived while the operation
ran: its result, and the session behind it. -/
inductive Makes (s₁ : Session τ κ) : Operation → Except SessionError Reply × Session τ κ → Prop
  /-- The session ends. -/
  | fatal {op : Operation} {e : SessionError} (he : e.isFatal = true) :
    Makes s₁ op (.error e, s₁.close)
  /-- The call takes the oldest answer. -/
  | call {c : Call} {r : Request} {a : Answer} {answers : List Answer} (hr : c.request = .ok r)
    (ha : s₁.answers = a :: answers) :
    Makes s₁ (.call c) (c.outcome a, { s₁ with answers }.settle (c.outcome a))
  /-- The call refuses its arguments. -/
  | refused {c : Call} {e : SessionError} (he : c.request = .error e) :
    Makes s₁ (.call c) (.error e, s₁)
  | exchange {r : Request} {a : Answer} {answers : List Answer} (ha : s₁.answers = a :: answers) :
    Makes s₁ (.exchange r) (.answer <$> Session.answerOutcome a, { s₁ with answers })
  | await {a : Answer} {answers : List Answer} (ha : s₁.answers = a :: answers) :
    Makes s₁ .await (.answer <$> Session.answerOutcome a, { s₁ with answers })
  /-- There is no answer and no way to receive one. -/
  | starved {op : Operation} (hnone : s₁.answers = [])
    (hcan : Transport.canReceive s₁.transport = false) : Makes s₁ op (.error .noDataSource, s₁)
  | send (r : Request) : Makes s₁ (.send r) (.ok .done, s₁)
  | poll :
    Makes s₁ .poll (.ok (.notifications s₁.takeNotifications.1), s₁.takeNotifications.2)
  | feed (data : Bytes) : Makes s₁ (.feed data) (.ok .done, s₁)
  | take :
    Makes s₁ .take (.ok (.notifications s₁.takeNotifications.1), s₁.takeNotifications.2)
  | close : Makes s₁ .close (.ok .done, s₁.close)
  | setHook : Makes s₁ .setHook (.ok .done, s₁.setHook)

/-- **An operation takes what arrives, and then does one of the things that it can do.** -/
theorem run_makes (op : Operation) {s : Session τ κ} (hopen : s.closed = false) :
    ∃ s₁, s.Takes (op.pieces s) s₁ ∧ op.Makes s₁ (op.run s) := by
  -- the operations that concern no transport take nothing
  have hidle := Session.Takes.none s s.transport
  unfold pieces
  rw [if_neg (ne_true_of_eq_false hopen)]
  cases op with
  | call c =>
    simp only
    show ∃ s₁, _ ∧ Makes s₁ _ (c.run s)
    rw [c.run_eq]
    cases hr : c.request with
    | error e => exact ⟨s, hidle, .refused hr⟩ -- nothing is sent, so nothing arrives
    | ok r =>
      obtain ⟨s₁, htakes, hawaits⟩ := Session.awaits_call hopen r
      refine ⟨s₁, htakes, ?_⟩
      simp only
      generalize Session.call r s = outcome at hawaits
      cases hawaits with
      | fatal he => exact .fatal he
      | starved hnone hcan => exact .starved hnone hcan
      | @answer a answers ha =>
        -- the outcome is the server's error, or what the call reads off the answer
        have hmakes : Makes s₁ (.call c) _ := .call hr ha
        rw [Call.outcome] at hmakes
        cases hanswer : Session.answerOutcome a with
        | error e =>
          rw [hanswer] at hmakes
          exact hmakes
        | ok b =>
          rw [hanswer] at hmakes
          exact hmakes
  | exchange r =>
    obtain ⟨s₁, htakes, hawaits⟩ := Session.awaits_call hopen r
    refine ⟨s₁, htakes, ?_⟩
    show Makes s₁ _ ((Reply.answer <$> Session.call r) s)
    rw [SessionM.map_apply]
    generalize Session.call r s = outcome at hawaits
    cases hawaits with
    | answer ha => exact .exchange ha
    | fatal he => exact .fatal he
    | starved hnone hcan => exact .starved hnone hcan
  | send r =>
    -- only the transport has been used, for a part of the request if the sending failed
    obtain ⟨transport, hleaves⟩ := Session.leaves_sendRequest hopen r
    refine ⟨_, Session.Takes.none s transport, ?_⟩
    show Makes _ _ (((fun _ => Reply.done) <$> Session.sendRequest r) s)
    rw [SessionM.map_apply]
    generalize Session.sendRequest r s = outcome at hleaves
    cases hleaves with
    | ok u => exact .send r
    | fatal he => exact .fatal he
  | await =>
    obtain ⟨s₁, htakes, hawaits⟩ := Session.awaits_awaitAnswer s
    refine ⟨s₁, htakes, ?_⟩
    show Makes s₁ _ ((Reply.answer <$> Session.waitForAnswer) s)
    rw [SessionM.map_apply, Session.waitForAnswer_of_open hopen]
    generalize Session.awaitAnswer s = outcome at hawaits
    cases hawaits with
    | answer ha => exact .await ha
    | fatal he => exact .fatal he
    | starved hnone hcan => exact .starved hnone hcan
  | poll =>
    obtain ⟨s₁, htakes, hleaves⟩ := Session.pollEvents_of_open hopen
    refine ⟨s₁, htakes, ?_⟩
    show Makes s₁ _ ((Reply.notifications <$> Session.pollEvents) s)
    rw [SessionM.map_apply]
    -- a poll that fails hands out nothing, the notifications stay queued behind it
    rcases hleaves with ⟨e, he, hpoll⟩ | hpoll
    · rw [hpoll]
      exact .fatal he
    · rw [hpoll]
      exact .poll
  | feed data =>
    obtain ⟨s₁, htakes, hleaves⟩ := Session.leaves_deliver data s
    refine ⟨s₁, htakes, ?_⟩
    show Makes s₁ _ (((fun _ => Reply.done) <$> Session.feed data) s)
    rw [SessionM.map_apply, Session.feed_of_open hopen]
    generalize Session.deliver data s = outcome at hleaves
    cases hleaves with
    | ok u => exact .feed data
    | fatal he => exact .fatal he
  | take => exact ⟨s, hidle, .take⟩
  | close => exact ⟨s, hidle, .close⟩
  | setHook => exact ⟨s, hidle, .setHook⟩

/-- An operation that does not end the session has sent its request: a request that could not be sent
fails the operation with the same error. -/
theorem sent_of_not_fatal (op : Operation) {s : Session τ κ} (hopen : s.closed = false)
    (hresult : isFatal (op.run s).1 = false) : op.sent s = op.request?.toList := by
  have hsends : ∀ {r}, isFatal (Session.sendRequest r s).1 = false →
      (match Session.sendRequest r s with
        | (.ok _, _) => [r]
        | (.error _, _) => []) = [r] := by
    intro r hr
    obtain ⟨transport, hleaves⟩ := Session.leaves_sendRequest hopen r
    generalize Session.sendRequest r s = outcome at hleaves hr
    cases hleaves with
    | ok u => rfl
    | fatal he => exact absurd (he.symm.trans hr) (by simp)
  -- a call fails as its request does
  have hcalls : ∀ {r}, isFatal (Session.call r s).1 = false →
      isFatal (Session.sendRequest r s).1 = false := by
    intro r hr
    rw [Session.call, SessionM.bind_apply] at hr
    generalize Session.sendRequest r s = outcome at hr ⊢
    rcases outcome with ⟨e | u, s'⟩
    · exact hr
    · rfl
  cases op with
  | call c =>
    have hrun : isFatal (c.run s).1 = false := hresult
    -- a call that refuses its arguments has no request, so nothing had to be sent
    rw [c.run_eq] at hrun
    simp only [sent, request?]
    cases hr : c.request with
    | error e => rfl
    | ok r =>
      simp only [hr] at hrun
      refine hsends (hcalls ?_)
      generalize Session.call r s = outcome at hrun ⊢
      rcases outcome with ⟨e | a, s'⟩
      · exact hrun
      · rfl
  | exchange r =>
    have hrun : isFatal ((Reply.answer <$> Session.call r) s).1 = false := hresult
    rw [SessionM.map_apply, isFatal_map] at hrun
    exact hsends (hcalls hrun)
  | send r =>
    have hrun : isFatal (((fun _ => Reply.done) <$> Session.sendRequest r) s).1 = false := hresult
    rw [SessionM.map_apply, isFatal_map] at hrun
    exact hsends hrun
  | await | poll | feed data | take | close | setHook => rfl

/-- **What an operation can do with a session that has ended**: nothing but what does not concern
the connection. -/
inductive Idles (s : Session τ κ) : Operation → Except SessionError Reply × Session τ κ → Prop
  | closed {op : Operation} : Idles s op (.error .closed, s)
  /-- The call refuses its arguments. -/
  | refused {c : Call} {e : SessionError} (he : c.request = .error e) :
    Idles s (.call c) (.error e, s)
  | take :
    Idles s .take (.ok (.notifications s.takeNotifications.1), s.takeNotifications.2)
  | close : Idles s .close (.ok .done, s)
  | setHook : Idles s .setHook (.ok .done, s.setHook)

/-- **An operation on a session that has ended leaves it alone.** -/
theorem run_idles (op : Operation) {s : Session τ κ} (hclosed : s.closed = true) :
    op.Idles s (op.run s) := by
  -- the request is refused first, so an exchange does not get as far as to wait
  have hcall : ∀ r, Session.call r s = (.error .closed, s) := by
    intro r
    rw [Session.call, SessionM.bind_apply, Session.sendRequest_of_closed hclosed]
  cases op with
  | call c =>
    show Idles s _ (c.run s)
    rw [c.run_eq]
    cases hr : c.request with
    -- the arguments are looked at before the session is
    | error e => exact .refused hr
    | ok r =>
      simp only [hcall]
      exact .closed
  | exchange r =>
    show Idles s _ ((Reply.answer <$> Session.call r) s)
    rw [SessionM.map_apply, hcall]
    exact .closed
  | send r =>
    show Idles s _ (((fun _ => Reply.done) <$> Session.sendRequest r) s)
    rw [SessionM.map_apply, Session.sendRequest_of_closed hclosed]
    exact .closed
  | await =>
    show Idles s _ ((Reply.answer <$> Session.waitForAnswer) s)
    rw [SessionM.map_apply, Session.waitForAnswer, Session.ensureOpen_bind_of_closed hclosed]
    exact .closed
  | poll =>
    show Idles s _ ((Reply.notifications <$> Session.pollEvents) s)
    rw [SessionM.map_apply, Session.pollEvents, Session.ensureOpen_bind_of_closed hclosed]
    exact .closed
  | feed data =>
    show Idles s _ (((fun _ => Reply.done) <$> Session.feed data) s)
    rw [SessionM.map_apply, Session.feed_of_closed hclosed]
    exact .closed
  | take => exact .take
  | close =>
    have hsame : s.close = s := if_pos hclosed
    show Idles s .close (.ok .done, s.close)
    rw [hsame]
    exact .close
  | setHook => exact .setHook

end Operation

end BoardLink
