import BoardLink.Capability.Known
import BoardLink.Proofs.Session.InFlight
import BoardLink.Proofs.Session.Scripted

/-!
# Violations and the answers in front of them

A session takes over all packets of a receive before anyone looks at the queue, and a violation at
the end of the receive ends the session and empties the queue. So what a call returns depends on
where the receives end: an answer that came alone is returned, and the violation is told by the
operation that receives it; an answer that came together with the violation is lost, and the call
tells the violation itself.

* `Operation.tells_run` — a violation is told by the operation during which it arrives;
* `Session.exists_tells_of_gather` — so it is told in each run in which it arrives;
* `Session.call_outcome_violated` — what a call returns whose answer has arrived, by the place of
  the first violation.
-/

namespace BoardLink

open BoardLink.Wire

namespace Wire.Inbox

/-! ### The first fault of a stream in pieces -/

/-- The first fault that an inbox meets, if it is drained after each piece of what arrives. -/
def faultIn (i : Inbox) (pieces : List Bytes) : Option Fault :=
  (i.drainPieces pieces).1.findSome? (·.fault)

theorem faultIn_append (i : Inbox) (pieces later : List Bytes) :
    i.faultIn (pieces ++ later) =
      (i.faultIn pieces).or ((i.drainPieces pieces).2.faultIn later) := by
  rw [faultIn, drainPieces_append, List.findSome?_append]
  rfl

theorem faultIn_singleton (i : Inbox) (piece : Bytes) :
    i.faultIn [piece] = (i.feed piece).drain.1.fault := by
  show [(i.feed piece).drain.1].findSome? (·.fault) = _
  exact List.findSome?_singleton

/-- Piece by piece an inbox meets the fault that it meets if the whole stream arrives at once. -/
theorem faultIn_withLimit {limit : Nat} {pieces : List Bytes}
    (hx : MessagePack.Walk.Exact limit pieces.flatten.length) :
    (withLimit limit).faultIn pieces = ((withLimit limit).feed pieces.flatten).drain.1.fault :=
  (drained_withLimit hx).2

/-- The fault of what was heard is the one of the whole stream. -/
theorem faultIn_of_prefix {limit : Nat} {pieces : List Bytes} {stream : Bytes} {fault : Fault}
    (hx : MessagePack.Walk.Exact limit stream.length) (hstream : pieces.flatten <+: stream)
    (h : (withLimit limit).faultIn pieces = some fault) :
    ((withLimit limit).feed stream).drain.1.fault = some fault := by
  -- what follows is a further piece, in front of which the fault has been met
  obtain ⟨more, rfl⟩ := hstream
  have hflatten : (pieces ++ [more]).flatten = pieces.flatten ++ more := by
    rw [List.flatten_append, List.flatten_singleton]
  rw [← hflatten] at hx ⊢
  rw [← faultIn_withLimit hx, faultIn_append, h]
  rfl

end Wire.Inbox

namespace Session

variable {τ κ : Type}

/-- A result that tells the violation in what has arrived, if there is one. -/
def Tells {α : Type} (s : Session τ κ) (pieces : List Bytes) (result : Except SessionError α) :
    Prop :=
  ∀ fault, s.inbox.faultIn pieces = some fault → result = .error (.ofFault fault)

theorem Tells.nothing {α : Type} (s : Session τ κ) (result : Except SessionError α) :
    s.Tells [] result := fun _ h => by cases h

theorem Tells.map {α β : Type} {s : Session τ κ} {pieces : List Bytes}
    {result : Except SessionError α} (f : α → β) (h : s.Tells pieces result) :
    s.Tells pieces (f <$> result) := by
  intro fault hfault
  rw [h fault hfault]
  rfl

/-- What fails first tells for what would have followed. -/
theorem Tells.bind {α β : Type} {s : Session τ κ} {pieces : List Bytes} {x : SessionM τ κ α}
    (f : α → SessionM τ κ β) (h : s.Tells pieces (x s).1) : s.Tells pieces ((x >>= f) s).1 := by
  intro fault hfault
  -- the outcome of the first step is known, and an error leaves the others out
  have htold := h fault hfault
  rw [SessionM.bind_apply]
  generalize x s = outcome at htold ⊢
  obtain ⟨result, s'⟩ := outcome
  obtain rfl : result = _ := htold
  rfl

/-- An error is told whatever the step would have returned. -/
theorem Tells.of_error {α β : Type} {s : Session τ κ} {pieces : List Bytes} {e : SessionError}
    (h : s.Tells pieces (.error e : Except SessionError α)) :
    s.Tells pieces (.error e : Except SessionError β) := by
  intro fault hfault
  rw [Except.error.inj (h fault hfault)]

variable [Capability κ]

/-- What is told later is told of all that has arrived, if there was no violation before. -/
theorem Tells.later {α : Type} {s s' : Session τ κ} {pieces more : List Bytes}
    {result : Except SessionError α} (htakes : s.Takes pieces s')
    (hnone : s.inbox.faultIn pieces = none) (h : s'.Tells more result) :
    s.Tells (pieces ++ more) result := by
  intro fault hfault
  -- no fault was met before, so the one that is told is the first of what came later
  rw [Inbox.faultIn_append, hnone, Option.none_or, ← htakes.inbox] at hfault
  exact h fault hfault

/-! ### Receiving -/

theorem tells_deliver (data : Bytes) (s : Session τ κ) : s.Tells [data] (deliver data s).1 := by
  intro fault hfault
  rw [Inbox.faultIn_singleton] at hfault
  rw [deliver_eq, hfault]
  rfl

variable [Transport τ]

/-- A receive that brings a piece delivers it. -/
theorem receiveMore_of_piece (tolerate : Bool) (s : Session τ κ) : s.piece = [] ∨
    ∃ data transport n, s.piece = [data] ∧ receiveMore tolerate s =
      ((fun _ => n) <$> (deliver data { s with transport }).1,
        (deliver data { s with transport }).2) := by
  unfold piece arriving
  by_cases hcan : Transport.canReceive s.transport = true
  · rw [if_pos hcan]
    unfold receiveMore
    rcases Transport.receive s.transport s.config.bufferSize with
      -- nothing is received from a transport that fails or has come to its end
      ⟨fault | (_ | ⟨b, data⟩), transport⟩
    · exact .inl rfl
    · exact .inl rfl
    · refine .inr ⟨b :: data, transport, data.length + 1, rfl, ?_⟩
      simp only
      rcases deliver (b :: data) { s with transport } with ⟨e | u, s'⟩ <;> rfl
  · rw [if_neg hcan]
    exact .inl rfl

/-- **A receive tells the violation that it brings**, -/
theorem tells_receiveMore (tolerate : Bool) (s : Session τ κ) :
    s.Tells s.piece (receiveMore tolerate s).1 := by
  rcases receiveMore_of_piece tolerate s with hnone | ⟨data, transport, n, hpiece, hmore⟩
  · rw [hnone]
    exact .nothing s _
  · rw [hpiece, hmore]
    exact (tells_deliver data { s with transport }).map _

/-- and if it fails without one it has brought nothing. -/
theorem piece_eq_nil_of_error {s s' : Session τ κ} {tolerate : Bool} {e : SessionError}
    (h : receiveMore tolerate s = (.error e, s')) (hfault : s.inbox.faultIn s.piece = none) :
    s.piece = [] := by
  rcases receiveMore_of_piece tolerate s with hnone | ⟨data, transport, n, hpiece, hmore⟩
  · exact hnone
  -- without a fault the delivery goes on, so it is not what failed
  · rw [hpiece, Inbox.faultIn_singleton] at hfault
    have hok : deliver data { s with transport } =
        (.ok (), ({ s with transport } : Session τ κ).hear data) := by
      rw [deliver_eq, hfault]
    rw [hmore, hok] at h
    cases h

/-- A receive that goes on has taken its piece, and there was no violation in it. -/
theorem takes_of_receiveMore {s s' : Session τ κ} {tolerate : Bool} {n : Nat}
    (hcan : Transport.canReceive s.transport = true) (h : receiveMore tolerate s = (.ok n, s')) :
    s.Takes s.piece s' ∧ s.inbox.faultIn s.piece = none := by
  constructor
  · obtain ⟨s₁, htakes, hleaves⟩ := leaves_receiveMore hcan tolerate
    rw [h] at hleaves
    cases hleaves with
    | ok => exact htakes
  · have htells := tells_receiveMore tolerate s
    rw [h] at htells
    -- a violation would have been told, and the receive would not have gone on
    cases hfault : s.inbox.faultIn s.piece with
    | none => rfl
    | some fault => cases htells fault hfault

/-! ### Waiting -/

/-- **A wait tells the violation that ends it.** The induction follows the receives; only the last
one can have brought it. -/
theorem tells_awaitAnswer (s : Session τ κ) : s.Tells s.awaitedPieces (awaitAnswer s).1 := by
  fun_induction awaitAnswer s with
  | case1 s a answers ha =>
    -- an answer that is queued is returned, and nothing is received
    rw [awaitedPieces_of_answer ha]
    exact .nothing s _
  | case2 s hnone hcan e s' hmore =>
    -- the receive that fails is the last one, and tells what it brings
    rw [awaitedPieces_of_none hnone, if_pos hcan, hmore, List.append_nil]
    have htells := tells_receiveMore false s
    rw [hmore] at htells
    exact htells.of_error
  | case3 s hnone hcan n s' hmore hpatience ih =>
    -- this receive brought none, so the first violation is the one that is met later
    obtain ⟨htakes, hfault⟩ := takes_of_receiveMore hcan hmore
    rw [awaitedPieces_of_none hnone, if_pos hcan, hmore]
    exact ih.later htakes hfault
  | case4 s hnone hcan =>
    rw [awaitedPieces_of_none hnone, if_neg hcan]
    exact .nothing s _

/-- **A wait that has met no violation returns the first answer**, of those that were queued and
those that it has heard. -/
theorem awaitAnswer_of_answered {s : Session τ κ} {a : Answer} {others : List Answer}
    (hfault : s.inbox.faultIn s.awaitedPieces = none)
    (hanswers : s.answers ++ answersIn (s.inbox.packetsIn s.awaitedPieces) = a :: others) :
    (awaitAnswer s).1 = answerOutcome a := by
  fun_induction awaitAnswer s with
  | case1 s first answers ha =>
    rw [ha] at hanswers
    exact congrArg answerOutcome (List.cons.inj hanswers).1
  | case2 s hnone hcan e s' hmore =>
    -- a receive that fails without a violation brings no answer
    rw [awaitedPieces_of_none hnone, if_pos hcan, hmore, List.append_nil] at hfault hanswers
    rw [piece_eq_nil_of_error hmore hfault, hnone] at hanswers
    cases hanswers
  | case3 s hnone hcan n s' hmore hpatience ih =>
    -- this piece belongs to the earlier ones, and the first answer stays the same
    obtain ⟨htakes, hfirst⟩ := takes_of_receiveMore hcan hmore
    rw [awaitedPieces_of_none hnone, if_pos hcan, hmore] at hfault hanswers
    refine ih ?_ ?_
    · rw [Inbox.faultIn_append, hfirst, Option.none_or, ← htakes.inbox] at hfault
      exact hfault
    · rw [Inbox.packetsIn_append, answersIn_append, ← List.append_assoc, ← htakes.answers,
        ← htakes.inbox] at hanswers
      exact hanswers
  | case4 s hnone hcan =>
    rw [awaitedPieces_of_none hnone, if_neg hcan, hnone] at hanswers
    cases hanswers

/-- Pieces of which the last one alone has brought something: there was neither an answer nor a
violation in front of it. -/
def EndsWithLast (s : Session τ κ) (pieces : List Bytes) : Prop :=
  pieces = [] ∨ ∃ earlier last, pieces = earlier ++ [last] ∧
    s.answers ++ answersIn (s.inbox.packetsIn earlier) = [] ∧ s.inbox.faultIn earlier = none

theorem endsWithLast_piece {s : Session τ κ} (hnone : s.answers = []) : s.EndsWithLast s.piece := by
  rcases receiveMore_of_piece false s with hpiece | ⟨data, transport, n, hpiece, -⟩
  · exact .inl hpiece
  · -- nothing is queued, and this piece is the first
    refine .inr ⟨[], data, hpiece, ?_, rfl⟩
    rw [hnone]
    rfl

/-- **A wait ends with the first receive that brings an answer or a violation.** -/
theorem endsWithLast_awaitedPieces (s : Session τ κ) : s.EndsWithLast s.awaitedPieces := by
  fun_induction awaitAnswer s with
  | case1 s a answers ha => exact .inl (awaitedPieces_of_answer ha)
  | case2 s hnone hcan e s' hmore =>
    rw [awaitedPieces_of_none hnone, if_pos hcan, hmore, List.append_nil]
    exact endsWithLast_piece hnone
  | case3 s hnone hcan n s' hmore hpatience ih =>
    obtain ⟨htakes, hfault⟩ := takes_of_receiveMore hcan hmore
    rw [awaitedPieces_of_none hnone, if_pos hcan, hmore]
    rcases ih with hlater | ⟨earlier, last, hlater, hanswers, hnofault⟩
    -- the wait behind this receive received nothing, so this piece is the last
    · simp only [hlater, List.append_nil]
      exact endsWithLast_piece hnone
    · -- what came in front of the last piece is this piece, and what came in front of it later
      refine .inr ⟨s.piece ++ earlier, last, ?_, ?_, ?_⟩
      · rw [List.append_assoc, ← hlater]
      · rw [Inbox.packetsIn_append, answersIn_append, ← List.append_assoc, ← htakes.answers,
          ← htakes.inbox, hanswers]
      · rw [Inbox.faultIn_append, hfault, Option.none_or, ← htakes.inbox, hnofault]
  | case4 s hnone hcan =>
    rw [awaitedPieces_of_none hnone, if_neg hcan]
    exact .inl rfl

/-- A wait is over with a receive that brings an answer or a violation. -/
theorem awaitedPieces_eq_piece {s : Session τ κ} (hnone : s.answers = [])
    (hcan : Transport.canReceive s.transport = true)
    (hlast : answersIn (s.inbox.packetsIn s.piece) ≠ [] ∨ s.inbox.faultIn s.piece ≠ none) :
    s.awaitedPieces = s.piece := by
  rw [awaitedPieces_of_none hnone, if_pos hcan]
  -- an error ends the wait, and an answer does so, too
  rcases hmore : receiveMore false s with ⟨e | n, s'⟩
  · exact List.append_nil _
  · obtain ⟨htakes, hfault⟩ := takes_of_receiveMore hcan hmore
    obtain ⟨a, others, ha⟩ :=
      List.exists_cons_of_ne_nil (hlast.resolve_right (not_not_intro hfault))
    have hanswers : s'.answers = a :: others := by rw [htakes.answers, hnone, ha, List.nil_append]
    simp only [awaitedPieces_of_answer hanswers, List.append_nil]

/-- An exchange whose request was sent waits in the session that has sent it. -/
theorem call_of_sendRequest_ok {s s' : Session τ κ} {r : Request} {u : Unit}
    (hsend : sendRequest r s = (.ok u, s')) :
    s'.inbox = s.inbox ∧ s'.answers = s.answers ∧ s.exchangePieces r = s'.awaitedPieces ∧
      call r s = awaitAnswer s' := by
  obtain ⟨hopen, transport, rfl⟩ := sendRequest_ok hsend
  refine ⟨rfl, rfl, ?_, call_of_sent hsend hopen⟩
  rw [exchangePieces, hsend]

theorem tells_call (r : Request) (s : Session τ κ) :
    s.Tells (s.exchangePieces r) (call r s).1 := by
  rcases hsend : sendRequest r s with ⟨e | u, s'⟩
  -- a request that could not be sent is not waited for
  · rw [exchangePieces, hsend]
    exact .nothing s _
  · obtain ⟨hinbox, -, hpieces, hcall⟩ := call_of_sendRequest_ok hsend
    rw [hpieces, hcall, Tells, ← hinbox]
    exact tells_awaitAnswer s'

theorem tells_pollEvents {s : Session τ κ} (hopen : s.closed = false) :
    s.Tells s.piece (pollEvents s).1 := by
  rw [pollEvents_apply hopen]
  by_cases hcan : Transport.canReceive s.transport = true
  · rw [if_pos hcan]
    exact (tells_receiveMore true s).bind _
  · -- nothing can be received
    have hpiece : s.piece = [] := by rw [piece, arriving, if_neg hcan]
    rw [hpiece]
    exact .nothing s _

/-- **A poll that fails has brought a violation, or nothing.** The session has taken over what came in
front of the violation, and then has ended. -/
theorem pollEvents_error {s s' : Session τ κ} {e : SessionError} (hopen : s.closed = false)
    (h : pollEvents s = (.error e, s')) :
    s'.registry = (s.registry.applyAll (eventsIn (s.inbox.packetsIn s.piece))).clear ∧
      (s.piece = [] ∨ ∃ fault, s.inbox.faultIn s.piece = some fault ∧ e = .ofFault fault) := by
  constructor
  · obtain ⟨s₁, htakes, ⟨e', -, hfails⟩ | hok⟩ := pollEvents_of_open hopen
    · obtain ⟨-, rfl⟩ := Prod.mk.inj (h.symm.trans hfails)
      rw [(close_of_open (htakes.closed.trans hopen)).2.2, htakes.registry]
    · cases h.symm.trans hok
  · cases hfault : s.inbox.faultIn s.piece with
    | some fault =>
      -- a violation is told, and it is the error
      have htold := tells_pollEvents hopen fault hfault
      rw [h] at htold
      exact .inr ⟨fault, rfl, Except.error.inj htold⟩
    | none =>
      -- a receive that brings a piece without a violation does not fail
      left
      rw [pollEvents_apply hopen] at h
      by_cases hcan : Transport.canReceive s.transport = true
      · rw [if_pos hcan, SessionM.bind_apply] at h
        rcases hmore : receiveMore true s with ⟨e' | n, s₁⟩
        · exact piece_eq_nil_of_error hmore hfault
        · -- behind a receive that goes on a poll cannot fail
          rw [hmore] at h
          cases h
      · rw [piece, arriving, if_neg hcan]

end Session

/-! ### Operations -/

namespace Operation

variable {τ κ : Type} [Transport τ] [Capability κ]

/-- **A violation is told by the operation during which it arrives.** -/
theorem tells_run (op : Operation) (s : Session τ κ) : s.Tells (op.pieces s) (op.run s).1 := by
  unfold pieces
  -- an operation on a session that has ended receives nothing
  cases hclosed : s.closed with
  | true => exact .nothing s _
  | false =>
    rw [if_neg Bool.false_ne_true]
    -- what an operation makes of the step that receives for it keeps an error as it is
    cases op with
    | call c =>
      show s.Tells _ (c.run s).1
      rw [c.run_eq]
      cases hr : c.request with
      | error e =>
        -- arguments that are refused are never sent
        simp only [hr]
        exact .nothing s _
      | ok r =>
        simp only [hr]
        intro fault hfault
        have htold := Session.tells_call r s fault hfault
        generalize Session.call r s = outcome at htold ⊢
        obtain ⟨result, s'⟩ := outcome
        obtain rfl : result = _ := htold
        rfl
    | exchange r =>
      show s.Tells _ ((Reply.answer <$> Session.call r) s).1
      rw [SessionM.map_apply]
      exact (Session.tells_call r s).map _
    | await =>
      show s.Tells _ ((Reply.answer <$> Session.waitForAnswer) s).1
      rw [SessionM.map_apply, Session.waitForAnswer_of_open hclosed]
      exact (Session.tells_awaitAnswer s).map _
    | poll =>
      show s.Tells _ ((Reply.notifications <$> Session.pollEvents) s).1
      rw [SessionM.map_apply]
      exact (Session.tells_pollEvents hclosed).map _
    | feed data =>
      show s.Tells _ (((fun _ => Reply.done) <$> Session.feed data) s).1
      rw [SessionM.map_apply, Session.feed_of_open hclosed]
      exact (Session.tells_deliver data s).map _
    | send | take | close | setHook => exact .nothing s _

/-- An operation leaves the inbox that its pieces leave. -/
theorem inbox_run (op : Operation) (s : Session τ κ) :
    (op.run s).2.inbox = (s.inbox.drainPieces (op.pieces s)).2 := by
  cases hclosed : s.closed with
  | true =>
    -- nothing is received by a session that has ended, and nothing is dispatched
    have hnothing : op.pieces s = [] := if_pos hclosed
    rw [hnothing]
    have hidles := op.run_idles hclosed
    generalize op.run s = outcome at hidles ⊢
    cases hidles with
    | closed | refused | take | close | setHook => rfl
  | false =>
    obtain ⟨s₁, htakes, hmakes⟩ := op.run_makes hclosed
    -- behind what it takes an operation leaves the inbox alone, even if the session ends
    have hclose : s₁.close.inbox = s₁.inbox := by
      obtain ⟨hook, queued, hadopt⟩ :=
        Session.adopt_eq { s₁ with closed := true, answers := [] } s₁.registry.clear
      rw [Session.close, apply_ite Session.inbox, Session.shutDown, hadopt, ite_self]
    rw [← htakes.inbox]
    generalize op.run s = outcome at hmakes ⊢
    cases hmakes with
    | fatal | close => exact hclose
    | @call c r a answers hr ha =>
      obtain ⟨registry, hook, queued, hsettle⟩ :=
        Session.settle_eq (c.outcome a) ({ s₁ with answers } : Session τ κ)
      rw [hsettle]
    | refused | exchange | await | starved | send | poll | feed | take | setHook => rfl

end Operation

namespace Session

variable {τ κ : Type} [Transport τ] [Capability κ]

/-- **A violation that arrives during a run is told by one of its operations.** -/
theorem exists_tells_of_gather {operations : List Operation} {s : Session τ κ} {fault : Fault}
    (h : s.inbox.faultIn (gather Operation.pieces operations s) = some fault) :
    ∃ (first : List Operation) (op : Operation) (others : List Operation),
      operations = first ++ op :: others ∧
      (op.run (after first s)).1 = .error (.ofFault fault) := by
  induction operations generalizing s with
  | nil => cases h
  | cons op operations ih =>
    rw [gather, Inbox.faultIn_append] at h
    cases hnow : s.inbox.faultIn (op.pieces s) with
    | some early =>
      -- the operation during which it arrives tells it
      rw [hnow] at h
      obtain rfl : early = fault := Option.some.inj h
      exact ⟨[], op, operations, rfl, op.tells_run s early hnow⟩
    | none =>
      -- this one brought no violation, and its inbox is where the next one begins
      rw [hnow, Option.none_or, ← op.inbox_run] at h
      obtain ⟨first, later, others, rfl, htells⟩ := ih h
      exact ⟨op :: first, later, others, rfl, htells⟩

/-- The inbox of a session is the one that all the pieces leave. -/
theorem inbox_after (operations : List Operation) (s : Session τ κ) :
    (after operations s).inbox =
      (s.inbox.drainPieces (gather Operation.pieces operations s)).2 := by
  induction operations generalizing s with
  | nil => rfl
  | cons op operations ih =>
    rw [gather, Inbox.drainPieces_append, ← op.inbox_run]
    exact ih (op.run s).2

/-- A session that is still open has met no violation. -/
theorem faultIn_of_open {operations : List Operation} {s : Session τ κ}
    (hopen : (after operations s).closed = false) :
    s.inbox.faultIn (gather Operation.pieces operations s) = none := by
  induction operations using List.reverseRecOn with
  | nil => rfl
  | append_singleton operations op ih =>
    -- the induction is on the end of a run, where it is known that the session is open
    rw [after_append] at hopen
    have hbefore : (after operations s).closed = false := Operation.open_of_run hopen
    rw [gather_concat, Inbox.faultIn_append, ih hbefore, Option.none_or, ← inbox_after]
    cases hfault : (after operations s).inbox.faultIn (op.pieces (after operations s)) with
    | none => rfl
    | some fault =>
      -- the operation would have told it, and ended the session
      have htold := op.tells_run (after operations s) fault hfault
      have hfatal : isFatal (op.run (after operations s)).1 = true := by
        rw [htold]
        exact isFatal_ofFault fault
      exact absurd ((op.ended_of_isFatal hbefore hfatal).1.symm.trans hopen)
        Bool.false_ne_true.symm

/-- What is told later is told by a later operation. -/
theorem exists_tells_of_append {operations later : List Operation} {s : Session τ κ} {fault : Fault}
    (hnone : s.inbox.faultIn (gather Operation.pieces operations s) = none)
    (h : s.inbox.faultIn (gather Operation.pieces (operations ++ later) s) = some fault) :
    ∃ (first : List Operation) (op : Operation) (others : List Operation),
      later = first ++ op :: others ∧
      (op.run (after (operations ++ first) s)).1 = .error (.ofFault fault) := by
  -- none was met during the first operations, so it is among what came later
  rw [gather_append, Inbox.faultIn_append, hnone, Option.none_or, ← inbox_after] at h
  obtain ⟨first, op, others, rfl, htells⟩ := exists_tells_of_gather h
  refine ⟨first, op, others, rfl, ?_⟩
  rw [after_append]
  exact htells

/-! ### The call whose answer has arrived -/

/-- A call that has sent its request hears what it waits for. -/
theorem pieces_call {c : Call} {r : Request} {s s' : Session τ κ} {u : Unit}
    (hr : c.request = .ok r) (hsend : sendRequest r s = (.ok u, s')) :
    (Operation.call c).pieces s = s'.awaitedPieces := by
  obtain ⟨hopen, -⟩ := sendRequest_ok hsend
  obtain ⟨-, -, hpieces, -⟩ := call_of_sendRequest_ok hsend
  rw [Operation.pieces, if_neg (ne_true_of_eq_false hopen)]
  simp only [hr]
  exact hpieces

/-- **A call that meets no violation returns what it makes of the first answer** that it can
take. -/
theorem run_call_of_answered {c : Call} {r : Request} {a : Answer} {others : List Answer}
    {s s' : Session τ κ} {u : Unit} (hr : c.request = .ok r)
    (hsend : sendRequest r s = (.ok u, s')) (hfault : s'.inbox.faultIn s'.awaitedPieces = none)
    (hanswers : s'.answers ++ answersIn (s'.inbox.packetsIn s'.awaitedPieces) = a :: others) :
    (c.run s).1 = c.outcome a ∧ (c.run s).2.closed = false := by
  obtain ⟨hopen, -⟩ := sendRequest_ok hsend
  obtain ⟨-, -, -, hcall⟩ := call_of_sendRequest_ok hsend
  have houtcome : (c.run s).1 = c.outcome a := by
    -- nothing was violated, so the wait returned the first answer
    have hrun : call r s = (answerOutcome a, (call r s).2) :=
      Prod.ext (hcall ▸ awaitAnswer_of_answered hfault hanswers) rfl
    rw [Call.run_of_call hr hrun]
  obtain ⟨s₁, htakes, hmakes⟩ := (Operation.call c).run_makes hopen
  refine ⟨houtcome, hmakes.stays (htakes.closed.trans hopen) rfl ?_⟩
  show isFatal (c.run s).1 = false
  rw [houtcome]
  exact c.isFatal_outcome a

/-- **A call that meets a violation tells it**, whatever answers there are, and is the last one. -/
theorem run_call_of_violated {c : Call} {r : Request} {violation : Fault} {s s' : Session τ κ}
    {u : Unit} (hr : c.request = .ok r) (hsend : sendRequest r s = (.ok u, s'))
    (hfault : s'.inbox.faultIn s'.awaitedPieces = some violation) :
    (c.run s).1 = .error (.ofFault violation) ∧ (c.run s).2.closed = true ∧
      (c.run s).2.answers = [] := by
  obtain ⟨hopen, -⟩ := sendRequest_ok hsend
  obtain ⟨hinbox, -⟩ := call_of_sendRequest_ok hsend
  -- the pieces of the wait are those of the operation, which tells the violation
  rw [hinbox, ← pieces_call hr hsend] at hfault
  have htold : (c.run s).1 = .error (.ofFault violation) :=
    (Operation.call c).tells_run s violation hfault
  refine ⟨htold, (Operation.call c).ended_of_isFatal hopen ?_⟩
  show isFatal (c.run s).1 = true
  rw [htold]
  exact isFatal_ofFault violation

omit [Transport τ] [Capability κ] in
/-- If the answers are matched, the one that belongs to the next request is the first one of those
that are queued and those that arrive. -/
theorem Matched.exists_eq_cons {i : Inbox} {pieces more : List Bytes} {sent : List Request}
    {s : Session τ κ} {a : Answer} (h : s.Matched i pieces sent)
    (ha : (answersIn (i.packetsIn (pieces ++ more)))[sent.length]? = some a) :
    ∃ others, s.answers ++ answersIn (s.inbox.packetsIn more) = a :: others := by
  -- the answers that were taken are as many as the requests, so the next is the first that is left
  obtain ⟨taken, htaken, hlength⟩ := h.answers
  rw [Inbox.packetsIn_append, answersIn_append, htaken, ← h.inbox, ← hlength, List.append_assoc,
    List.getElem?_append_right (Nat.le_refl _), Nat.sub_self] at ha
  cases hqueue : s.answers ++ answersIn (s.inbox.packetsIn more) with
  | nil =>
    rw [hqueue] at ha
    cases ha
  | cons b others =>
    rw [hqueue] at ha
    exact ⟨others, congrArg (· :: others) (Option.some.inj ha)⟩

/-- In front of the last piece of a wait there are the answers to the requests sent before, and no
violation. -/
theorem Matched.exists_last {i : Inbox} {pieces : List Bytes} {sent : List Request}
    {s : Session τ κ} (h : s.Matched i pieces sent) (hquiet : i.faultIn pieces = none)
    (hwaits : s.awaitedPieces ≠ []) :
    ∃ earlier last, pieces ++ s.awaitedPieces = earlier ++ [last] ∧
      (answersIn (i.packetsIn earlier)).length = sent.length ∧ i.faultIn earlier = none := by
  obtain ⟨first, last, hlast, hanswers, hsilent⟩ :=
    (endsWithLast_awaitedPieces s).resolve_left hwaits
  refine ⟨pieces ++ first, last, ?_, ?_, ?_⟩
  · rw [hlast, List.append_assoc]
  · -- nothing is queued behind the answers that were taken
    obtain ⟨taken, htaken, hlength⟩ := h.answers
    rw [Inbox.packetsIn_append, answersIn_append, htaken, List.append_assoc, ← h.inbox, hanswers,
      List.append_nil, hlength]
  · rw [Inbox.faultIn_append, hquiet, Option.none_or, ← h.inbox, hsilent]

/-- **What a call returns whose answer has arrived.** A session has run through operations that wait
for what they send, and has given up none of their requests; over a transport that can receive it
never does (`abandoned_eq_nil`). Then a call sends a request. The stream begins with what has been
heard by the time that the call returns; it has the answer to the request in front of its first
violation, and this answer has been heard.

* If the violation has not been heard, the call returns what it makes of the answer, and the session
  is open. Whatever the application does then, the violation is told by the operation during which
  it arrives.
* If it has been heard, the call tells the violation; the answer is lost, and the session has ended.
  The receive that brought the one has brought the other as well: what was heard before it holds the
  answers to the requests sent before, and no violation.

So the outcome of the call is that of its answer exactly if the violation comes with a later
receive. -/
theorem call_outcome_violated {transport : τ} {config : Config} {own : Option (CapabilityTable κ)}
    {shared : CapabilityTable κ} {before : List Operation} {c : Call} {r : Request} {a : Answer}
    {violation : Fault} {stream : Bytes} (hpaired : ∀ op ∈ before, op.Paired)
    (hkept : gather Operation.abandoned before (create transport config own shared) = [])
    (hsent : (Operation.call c).sent (after before (create transport config own shared)) = [r])
    (hx : MessagePack.Walk.Exact config.messageLimit stream.length)
    (hviolation : ((Inbox.withLimit config.messageLimit).feed stream).drain.1.fault =
      some violation) :
    let s₀ := create transport config own shared
    let s := after before s₀
    let answersOf (bytes : Bytes) : List Answer :=
      answersIn ((Inbox.withLimit config.messageLimit).feed bytes).drain.1.packets
    let faultOf (bytes : Bytes) : Option Fault :=
      ((Inbox.withLimit config.messageLimit).feed bytes).drain.1.fault
    let heard (operations : List Operation) : List Bytes := gather Operation.pieces operations s₀
    let place := (gather Operation.sent before s₀).length
    (heard (before ++ [Operation.call c])).flatten <+: stream →
      (answersOf stream)[place]? = some a →
      place < (answersOf (heard (before ++ [Operation.call c])).flatten).length →
      (faultOf (heard (before ++ [Operation.call c])).flatten = none →
        (c.run s).1 = c.outcome a ∧ (c.run s).2.closed = false ∧
        ∀ later, (heard (before ++ Operation.call c :: later)).flatten <+: stream →
          faultOf (heard (before ++ Operation.call c :: later)).flatten ≠ none →
          ∃ (first : List Operation) (op : Operation) (others : List Operation),
            later = first ++ op :: others ∧
            (op.run (after (before ++ Operation.call c :: first) s₀)).1 =
              .error (.ofFault violation)) ∧
      (faultOf (heard (before ++ [Operation.call c])).flatten ≠ none →
        (c.run s).1 = .error (.ofFault violation) ∧ (c.run s).2.closed = true ∧
          (c.run s).2.answers = [] ∧
        ∃ earlier last, heard (before ++ [Operation.call c]) = earlier ++ [last] ∧
          (answersOf earlier.flatten).length = place ∧ faultOf earlier.flatten = none) := by
  intro s₀ s answersOf faultOf heard place hstream hanswer harrived
  obtain ⟨hr, s', hsend⟩ := sendRequest_of_sent hsent
  obtain ⟨hopen, -⟩ := sendRequest_ok hsend
  obtain ⟨hinbox, hqueue, -⟩ := call_of_sendRequest_ok hsend
  -- the session that has sent the request is matched as it was before
  have hmatched : s.Matched s₀.inbox (heard before) (gather Operation.answered before s₀) :=
    Matched.run hpaired hopen ⟨rfl, [], rfl, rfl⟩
  have hmatched' : s'.Matched s₀.inbox (heard before) (gather Operation.answered before s₀) :=
    ⟨hinbox.trans hmatched.inbox, hqueue ▸ hmatched.answers⟩
  have hplace : (gather Operation.answered before s₀).length = place := by
    have hcount := length_sent before s₀
    rwa [hkept, List.length_nil, Nat.add_zero] at hcount
  -- the call hears what it waits for, behind what was heard before, and there was no violation yet
  have hheard : heard (before ++ [Operation.call c]) = heard before ++ s'.awaitedPieces := by
    rw [← pieces_call hr hsend]
    exact gather_concat _ _ _ _
  have hquiet : s₀.inbox.faultIn (heard before) = none := faultIn_of_open hopen
  have hnow : s₀.inbox.faultIn (heard (before ++ [Operation.call c])) =
      s'.inbox.faultIn s'.awaitedPieces := by
    rw [hheard, Inbox.faultIn_append, hquiet, Option.none_or, ← hmatched'.inbox]
  -- what the stream says of a part that was heard is what was decoded of it
  have hanswersOf : ∀ pieces : List Bytes, pieces.flatten <+: stream →
      answersOf pieces.flatten = answersIn (s₀.inbox.packetsIn pieces) := fun pieces hprefix =>
    congrArg answersIn (Inbox.packetsIn_withLimit (hx.mono hprefix.length_le)).symm
  have hfaultOf : ∀ pieces : List Bytes, pieces.flatten <+: stream →
      faultOf pieces.flatten = s₀.inbox.faultIn pieces := fun pieces hprefix =>
    (Inbox.faultIn_withLimit (hx.mono hprefix.length_le)).symm
  have hfirst : ∀ pieces : List Bytes, pieces.flatten <+: stream →
      faultOf pieces.flatten ≠ none → s₀.inbox.faultIn pieces = some violation := by
    intro pieces hprefix hfaulty
    rw [hfaultOf pieces hprefix] at hfaulty
    obtain ⟨fault, hfault⟩ := Option.ne_none_iff_exists'.1 hfaulty
    rw [hfault, ← hviolation, Inbox.faultIn_of_prefix hx hprefix hfault]
  constructor
  · intro hnofault
    rw [hfaultOf _ hstream] at hnofault
    rw [hanswersOf _ hstream] at harrived
    -- the answer that was heard in this place is that of the stream
    have hb := List.getElem?_eq_getElem harrived
    have hplaced := Inbox.getElem?_answersIn_of_prefix hx hstream hb
    rw [hanswer] at hplaced
    rw [← Option.some.inj hplaced, hheard, ← hplace] at hb
    obtain ⟨others, hwaiting⟩ := hmatched'.exists_eq_cons hb
    obtain ⟨houtcome, hstays⟩ := run_call_of_answered hr hsend (hnow.symm.trans hnofault) hwaiting
    refine ⟨houtcome, hstays, fun later hlater hfaulty => ?_⟩
    have htold := hfirst _ hlater hfaulty
    rw [List.append_cons] at htold
    obtain ⟨first, op, others, hsplit, htells⟩ := exists_tells_of_append hnofault htold
    refine ⟨first, op, others, hsplit, ?_⟩
    rw [List.append_cons]
    exact htells
  · intro hfaulty
    have hfault := hnow.symm.trans (hfirst _ hstream hfaulty)
    obtain ⟨htold, hends, hnone⟩ := run_call_of_violated hr hsend hfault
    have hwaits : s'.awaitedPieces ≠ [] := by
      intro hnothing
      rw [hnothing] at hfault
      cases hfault
    obtain ⟨earlier, last, hlast, hlength, hsilent⟩ := hmatched'.exists_last hquiet hwaits
    rw [← hheard] at hlast
    have hprefix : earlier.flatten <+: stream := by
      rw [hlast, List.flatten_append] at hstream
      exact (List.prefix_append _ _).trans hstream
    refine ⟨htold, hends, hnone, earlier, last, hlast, ?_, ?_⟩
    · rw [hanswersOf _ hprefix, hlength, hplace]
    · rw [hfaultOf _ hprefix, hsilent]

/-! ### One receive or two -/

/-- A session to which the server sends one block. -/
def receiving (block : Bytes) : Session Scripted Known :=
  create { arrivals := [.data block] } {} none {}

/-- A call sends its request, and hears the block if that has an answer in it. -/
theorem heard_receiving {c : Call} {r : Request} {b : UInt8} {block : Bytes}
    (hr : c.request = .ok r) (hsize : block.length < 8 * 1024)
    (hanswers : answersIn ((receiving (b :: block)).inbox.feed (b :: block)).drain.1.packets ≠ []) :
    (Operation.call c).sent (receiving (b :: block)) = [r] ∧
      (gather Operation.pieces [.call c] (receiving (b :: block))).flatten = b :: block := by
  have heager : Eager (receiving (b :: block)).transport := ⟨rfl, rfl⟩
  obtain ⟨accepted, hall⟩ := sendAll_scripted heager r.encode
  have hsend := (sendRequest_of_open (s := receiving (b :: block)) rfl r).trans hall
  have hrequest : (Operation.call c).request? = some r := congrArg Except.toOption hr
  have hpiece : ({ receiving (b :: block) with transport.sender.accepted := accepted } :
      Session Scripted Known).piece = [b :: block] := by
    rw [piece, arriving_scripted rfl hsize]
  have hlast := hanswers
  rw [← Inbox.packetsIn_singleton] at hlast
  constructor
  · rw [Operation.sent, hrequest]
    simp only [hsend]
  · show ((Operation.call c).pieces _ ++ []).flatten = _
    rw [List.append_nil, pieces_call hr hsend, awaitedPieces_eq_piece rfl rfl, hpiece]
    · exact List.flatten_singleton
    · rw [hpiece]
      exact .inl hlast

/-- A byte that begins no packet is a violation. -/
theorem drain_reserved :
    ((Inbox.withLimit MessagePack.defaultMessageLimit).feed [0xc1]).drain.1 =
      ⟨[], some (.invalidFormat (.malformed .reservedMarker))⟩ := by
  have hbroken : ((Inbox.withLimit MessagePack.defaultMessageLimit).feed [0xc1]).next =
    (.error (.invalidFormat (.malformed .reservedMarker)), _) := rfl
  rw [Inbox.drain_eq, hbroken]

/-- An event and behind it a byte that begins no packet are decoded as the event and a violation. -/
theorem drain_event_reserved {e : Event}
    (hgets : readPackets.Gets MessagePack.defaultMessageLimit (Packet.event e).toValue (.event e)) :
    ((Inbox.withLimit MessagePack.defaultMessageLimit).feed
      (encodePackets [.event e] ++ [0xc1])).drain.1 =
        ⟨[.event e], some (.invalidFormat (.malformed .reservedMarker))⟩ := by
  have hbytes : encodePackets [.event e] = (Packet.event e).toValue.encode := List.append_nil _
  rw [hbytes, Inbox.drain_of_gets hgets (by decide), drain_reserved]

/-- The answer with the word 7 is taken off the front of what arrives, and a byte behind it that
begins no packet is a violation. -/
theorem drain_receiving :
    let fresh : Inbox := .withLimit MessagePack.defaultMessageLimit
    let a : Answer := .success (.ofNat64 7)
    (fresh.feed [0x92, 0x00, 0x07]).drain.1 = ⟨[.answer a], none⟩ ∧
      (fresh.feed [0x92, 0x00, 0x07, 0xc1]).drain.1 =
        ⟨[.answer a], some (.invalidFormat (.malformed .reservedMarker))⟩ := by
  intro fresh a
  have hgets : readPackets.Gets MessagePack.defaultMessageLimit (Packet.answer a).toValue
      (.answer a) := by
    refine Packet.gets_answer (by decide) ?_ (by decide) (by decide)
    intro v hv
    obtain rfl := List.mem_singleton.1 hv
    exact (MessagePack.Value.flat_ofNat64 7).mono (by decide)
  have hbytes : (Packet.answer a).toValue.encode = [0x92, 0x00, 0x07] := by decide
  have hfirst : ∀ rest : Bytes, (fresh.feed ([0x92, 0x00, 0x07] ++ rest)).drain = _ :=
    fun rest => hbytes ▸ Inbox.drain_of_gets hgets (by decide) rest
  constructor
  · have halone : (fresh.feed [0x92, 0x00, 0x07]).drain = _ := hfirst []
    have hempty : (fresh.feed []).next = (.ok none, fresh) := rfl
    rw [halone, Inbox.drain_eq, hempty]
  · have hboth : (fresh.feed [0x92, 0x00, 0x07, 0xc1]).drain = _ := hfirst [0xc1]
    rw [hboth, drain_reserved]

/-- A session reads a register. In one run the block that brings the word 7 ends with a byte that
begins no packet, and the word is lost; in another the byte comes behind the block, and the session
returns the word and tells the violation afterwards. -/
theorem call_outcome_violated_receiving :
    let c : Call := .readReg "FAOUT-01" 0 1
    let violation : Fault := .invalidFormat (.malformed .reservedMarker)
    let together := receiving [0x92, 0x00, 0x07, 0xc1]
    let apart := receiving [0x92, 0x00, 0x07]
    (c.run together).1 = .error (.ofFault violation) ∧ (c.run together).2.answers = [] ∧
      (c.run apart).1 = .ok (.word 7) ∧
      ((Operation.feed [0xc1]).run (c.run apart).2).1 = .error (.ofFault violation) := by
  intro c violation together apart
  let fresh : Inbox := .withLimit MessagePack.defaultMessageLimit
  let a : Answer := .success (.ofNat64 7)
  obtain ⟨hfront, hwhole⟩ := drain_receiving
  have hpaired : ∀ op ∈ ([] : List Operation), op.Paired := fun _ hop => by cases hop
  have hviolation : (fresh.feed [0x92, 0x00, 0x07, 0xc1]).drain.1.fault = some violation := by
    rw [hwhole]
  have hanswer : (answersIn (fresh.feed [0x92, 0x00, 0x07, 0xc1]).drain.1.packets)[0]? =
      some a := by
    rw [hwhole]
    rfl
  -- the answer and the byte behind it come together
  have hqueued : answersIn (fresh.feed [0x92, 0x00, 0x07, 0xc1]).drain.1.packets ≠ [] := by
    rw [hwhole]
    exact List.cons_ne_nil a []
  obtain ⟨hsent, hheard⟩ := heard_receiving (c := c) rfl (by decide) hqueued
  have harrived : 0 < (answersIn (fresh.feed
      (gather Operation.pieces [.call c] together).flatten).drain.1.packets).length := by
    rw [hheard]
    exact List.length_pos_of_ne_nil hqueued
  obtain ⟨-, hlost⟩ := call_outcome_violated hpaired rfl hsent (.inl (by decide)) hviolation
    ⟨[], (List.append_nil _).trans hheard⟩ hanswer harrived
  obtain ⟨htold, -, hnone, -⟩ := hlost (by
    show (fresh.feed (gather Operation.pieces [.call c] together).flatten).drain.1.fault ≠ none
    rw [hheard, hviolation]
    exact Option.some_ne_none violation)
  refine ⟨htold, hnone, ?_⟩
  -- the byte comes behind the answer
  have hqueued' : answersIn (fresh.feed [0x92, 0x00, 0x07]).drain.1.packets ≠ [] := by
    rw [hfront]
    exact List.cons_ne_nil a []
  obtain ⟨hsent', hheard'⟩ := heard_receiving (c := c) rfl (by decide) hqueued'
  have harrived' : 0 < (answersIn (fresh.feed
      (gather Operation.pieces [.call c] apart).flatten).drain.1.packets).length := by
    rw [hheard']
    exact List.length_pos_of_ne_nil hqueued'
  obtain ⟨hkept, -⟩ := call_outcome_violated hpaired rfl hsent' (.inl (by decide)) hviolation
    ⟨[0xc1], congrArg (· ++ [0xc1]) hheard'⟩ hanswer harrived'
  obtain ⟨houtcome, hstays, hlater⟩ := hkept (by
    show (fresh.feed (gather Operation.pieces [.call c] apart).flatten).drain.1.fault = none
    rw [hheard', hfront])
  have hboth : (gather Operation.pieces [.call c, .feed [0xc1]] apart).flatten =
      [0x92, 0x00, 0x07, 0xc1] := by
    have hfed : (Operation.feed [0xc1]).pieces (after [.call c] apart) = [[0xc1]] :=
      if_neg (ne_true_of_eq_false hstays)
    have hconcat := gather_concat Operation.pieces [.call c] (.feed [0xc1]) apart
    rw [hfed] at hconcat
    show (gather Operation.pieces ([Operation.call c] ++ [.feed [0xc1]]) apart).flatten = _
    rw [hconcat, List.flatten_append, hheard']
    rfl
  obtain ⟨first, op, others, hsplit, htold'⟩ := hlater [.feed [0xc1]]
    ⟨[], (List.append_nil _).trans hboth⟩ (by
      show (fresh.feed
        (gather Operation.pieces [.call c, .feed [0xc1]] apart).flatten).drain.1.fault ≠ none
      rw [hboth, hviolation]
      exact Option.some_ne_none violation)
  obtain ⟨rfl, hop⟩ := List.append_eq_singleton_iff.1 hsplit.symm |>.resolve_right (by simp)
  obtain ⟨rfl, -⟩ := List.cons.inj hop
  exact ⟨houtcome, htold'⟩

end Session

end BoardLink
