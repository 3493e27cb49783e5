import BoardLink.Capability.Known
import BoardLink.Proofs.Session.Closing
import BoardLink.Proofs.Session.Scripted
import BoardLink.Proofs.Wire.Classification
import Mathlib.Data.List.Induction

/-!
# Answers and their requests

Answers carry no identifier. They belong to requests by their order alone: the answer to the request
that was sent as number `k` is the answer number `k` of the stream, however many events lie between,
however the stream is cut, and whether answers arrive before they are asked for. This holds as long
as each request is waited for, and no answer without a request (`Operation.Paired`).

What carries it is an invariant of sessions (`Session.Matched`): the answers decoded so far are as
many as requests were sent, and behind them those that are queued. An operation that sends a request
takes one answer off the queue, whatever it then makes of it, or else it ends the session. Where
nothing can be received there is a third way: it gives the request up (`gaveUp`). So the requests
that were answered are recorded apart from those that were given up, and over a transport that can
receive they are all (`Operation.answered_eq_sent`).

* `Inbox.packetsIn_withLimit` — the packets that are decoded piece by piece are those of the whole
  stream;
* `Operation.Makes.matched` — the crux: one operation keeps the answers matched;
* `Session.Matched.run` — so a whole run does, over any transport;
* `Session.call_outcome` — so each call returns what it makes of its own answer.
-/

namespace BoardLink

open BoardLink.Wire

namespace Wire

/-! ### The packets of a stream -/

namespace Inbox

/-- Piece by piece an inbox yields what it yields if the whole stream arrives at once, and meets the
same fault behind it. -/
theorem drained_withLimit {limit : Nat} {pieces : List Bytes}
    (hx : MessagePack.Walk.Exact limit pieces.flatten.length) :
    (withLimit limit).packetsIn pieces =
        ((withLimit limit).feed pieces.flatten).drain.1.packets ∧
      ((withLimit limit).drainPieces pieces).1.findSome? (·.fault) =
        ((withLimit limit).feed pieces.flatten).drain.1.fault := by
  -- nothing has failed yet, so the inbox takes what its framer takes
  have hfresh : ((withLimit limit).feed pieces.flatten).failure = none := rfl
  have htaken : MessagePack.Framer.takePieces readPackets { limit := limit } pieces = _ :=
    MessagePack.Framer.takePieces_eq_takeAll (.of_exact hx)
  obtain ⟨hitems, hfault, -⟩ := drainPieces_ofTaken ⟨[], none, { limit := limit }, []⟩ pieces
  rw [Option.none_or] at hfault
  rw [drain_eq_takeAll hfresh]
  exact ⟨hitems.trans (congrArg (·.items) htaken), hfault.trans (congrArg (·.fault) htaken)⟩

theorem packetsIn_withLimit {limit : Nat} {pieces : List Bytes}
    (hx : MessagePack.Walk.Exact limit pieces.flatten.length) :
    (withLimit limit).packetsIn pieces =
      ((withLimit limit).feed pieces.flatten).drain.1.packets :=
  (drained_withLimit hx).1

/-- What comes later in a stream is decoded behind what was heard first. -/
theorem packetsIn_prefix {limit : Nat} {pieces : List Bytes} {stream : Bytes}
    (hx : MessagePack.Walk.Exact limit stream.length) (hstream : pieces.flatten <+: stream) :
    (withLimit limit).packetsIn pieces <+: ((withLimit limit).feed stream).drain.1.packets := by
  obtain ⟨more, rfl⟩ := hstream
  -- the rest of the stream is one more piece, and what it yields stands behind
  have hflatten : (pieces ++ [more]).flatten = pieces.flatten ++ more := by
    rw [List.flatten_append, List.flatten_singleton]
  rw [← hflatten] at hx ⊢
  rw [← packetsIn_withLimit hx, packetsIn_append]
  exact List.prefix_append _ _

/-- An answer that was heard has its place in the whole stream. -/
theorem getElem?_answersIn_of_prefix {limit k : Nat} {pieces : List Bytes} {stream : Bytes}
    {a : Answer} (hx : MessagePack.Walk.Exact limit stream.length)
    (hstream : pieces.flatten <+: stream)
    (h : (answersIn ((withLimit limit).packetsIn pieces))[k]? = some a) :
    (answersIn ((withLimit limit).feed stream).drain.1.packets)[k]? = some a := by
  obtain ⟨hlt, hplace⟩ := List.getElem?_eq_some_iff.1 h
  have hpackets := packetsIn_prefix hx hstream
  have hprefix : answersIn ((withLimit limit).packetsIn pieces) <+:
      answersIn ((withLimit limit).feed stream).drain.1.packets := hpackets.filterMap _
  rw [List.prefix_iff_getElem?.1 hprefix _ hlt, hplace]

theorem next_ok_some {i i' : Inbox} {p : Packet} (h : i.next = (.ok (some p), i')) :
    ∃ v, Packet.ofValue v = .ok p := by
  unfold next at h
  split at h
  · cases h
  · simp only at h
    split at h
    next packet hread =>
      obtain ⟨rfl, -⟩ : packet = some p ∧ _ := by simpa using h
      obtain ⟨v, -, hv⟩ := readPacket_eq_some hread
      exact ⟨v, hv⟩
    · cases h

/-- Each packet that is yielded was read from a value. -/
theorem exists_ofValue_of_mem_drain {i : Inbox} {p : Packet} (h : p ∈ i.drain.1.packets) :
    ∃ v, Packet.ofValue v = .ok p := by
  -- on the length of the buffer: every packet that is yielded has shortened it
  induction hn : i.buffer.length using Nat.strongRecOn generalizing i with
  | _ n ih =>
  rw [drain_eq] at h
  match hnext : i.next with
  | (.ok none, i') | (.error fault, i') =>
    rw [hnext] at h
    cases h
  | (.ok (some first), i') =>
    rw [hnext] at h
    rcases List.mem_cons.1 h with rfl | hlater
    · exact next_ok_some hnext
    · have hlt := length_next_lt hnext
      exact ih i'.buffer.length (by omega) hlater rfl

end Inbox

/-- The rcode of an answer is not positive: that is what makes a packet an answer. -/
theorem Packet.rcode_le_zero_of_ofValue {v : MessagePack.Value} {a : Answer}
    (h : Packet.ofValue v = .ok (.answer a)) : a.rcode ≤ 0 := by
  obtain ⟨first, fields, rcode, -, -, hle, rfl⟩ := Packet.ofValue_eq_ok_iff.1 h
  exact hle

theorem rcode_le_zero_of_mem_drain {i : Inbox} {a : Answer}
    (h : a ∈ answersIn i.drain.1.packets) : a.rcode ≤ 0 := by
  obtain ⟨p, hp, hanswer⟩ := List.mem_filterMap.1 h
  obtain ⟨v, hv⟩ := Inbox.exists_ofValue_of_mem_drain hp
  cases p with
  | answer b =>
    obtain rfl := Option.some.inj hanswer
    exact Packet.rcode_le_zero_of_ofValue hv
  | event e | unknown rcode fields => cases hanswer

end Wire

/-! ### Matching answers to requests -/

/-- An operation that takes an answer for each request that it sends, and no other. Sending without
waiting and waiting without sending are the two that are not. -/
def Operation.Paired : Operation → Prop
  | .send _ | .await => False
  | _ => True

namespace Session

variable {τ κ : Type}

/-- **The answers of a stream are matched to requests.** `pieces` is what has been delivered since
the inbox was `i`, and `sent` are the requests that were sent meanwhile: as many answers have been
taken off the queue, and behind them are those that wait in it. -/
structure Matched (i : Inbox) (pieces : List Bytes) (sent : List Request) (s : Session τ κ) :
    Prop where
  inbox : s.inbox = (i.drainPieces pieces).2
  answers : ∃ taken, answersIn (i.packetsIn pieces) = taken ++ s.answers ∧
    taken.length = sent.length

/-- What arrives waits in the queue. -/
theorem Matched.takes [Capability κ] {i : Inbox} {pieces later : List Bytes} {sent : List Request}
    {s s₁ : Session τ κ} (h : s.Matched i pieces sent) (htakes : s.Takes later s₁) :
    s₁.Matched i (pieces ++ later) sent where
  inbox := by rw [htakes.inbox, h.inbox, Inbox.drainPieces_append]
  answers := by
    obtain ⟨taken, hanswers, hlength⟩ := h.answers
    refine ⟨taken, ?_, hlength⟩
    rw [Inbox.packetsIn_append, answersIn_append, hanswers, htakes.answers, h.inbox,
      List.append_assoc]

/-- The oldest answer in the queue is the one that belongs to the next request. -/
theorem Matched.getElem?_eq {i : Inbox} {pieces : List Bytes} {sent : List Request}
    {s : Session τ κ} {a : Answer} {answers : List Answer} (h : s.Matched i pieces sent)
    (ha : s.answers = a :: answers) : (answersIn (i.packetsIn pieces))[sent.length]? = some a := by
  -- the answers taken are as many as the requests, so the next place is the front of the queue
  obtain ⟨taken, hall, hlength⟩ := h.answers
  rw [hall, ha, ← hlength, List.getElem?_append_right (Nat.le_refl _), Nat.sub_self]
  rfl

/-- Taking it matches one more request. -/
theorem Matched.pop {i : Inbox} {pieces : List Bytes} {sent : List Request} {s s' : Session τ κ}
    {r : Request} {a : Answer} {answers : List Answer} (h : s.Matched i pieces sent)
    (ha : s.answers = a :: answers) (hinbox : s'.inbox = s.inbox) (hanswers : s'.answers = answers) :
    s'.Matched i pieces (sent ++ [r]) where
  inbox := hinbox.trans h.inbox
  answers := by
    obtain ⟨taken, hall, hlength⟩ := h.answers
    refine ⟨taken ++ [a], ?_, ?_⟩
    · rw [hall, ha, hanswers, List.append_assoc]
      rfl
    · rw [List.length_append, List.length_append, hlength]
      rfl

end Session

/-- Whether an outcome says that an answer was not to be had: there is none, and no way to receive
one. -/
def gaveUp {α : Type} : Except SessionError α → Bool
  | .error .noDataSource => true
  | _ => false

theorem gaveUp_of_failsOnly {α : Type} {x : Except SessionError α}
    (h : FailsOnly SessionError.IsOfAnswer x) : gaveUp x = false := by
  cases x with
  | ok a => rfl
  | error e =>
    cases e with
    | noDataSource => exact (h _ rfl).elim
    | _ => rfl

theorem gaveUp_of_isFatal {α : Type} {x : Except SessionError α} (h : isFatal x = true) :
    gaveUp x = false := by
  cases x with
  | ok a => rfl
  | error e =>
    cases e with
    | noDataSource => cases h
    | _ => rfl

namespace Operation

variable {τ κ : Type} [Transport τ] [Capability κ]

/-- The request that an operation sends and takes an answer for. -/
def answered (op : Operation) (s : Session τ κ) : List Request :=
  if gaveUp (op.run s).1 then [] else op.sent s

/-- The request that an operation sends and gives up. -/
def abandoned (op : Operation) (s : Session τ κ) : List Request :=
  if gaveUp (op.run s).1 then op.sent s else []

/-- **An operation keeps the answers matched**, unless it ends the session: if it sends a request it
takes one answer or gives up, and if it sends none it takes none. -/
theorem Makes.matched {op : Operation} {s₁ : Session τ κ}
    {outcome : Except SessionError Reply × Session τ κ} {i : Inbox} {pieces : List Bytes}
    {sent : List Request} (hpaired : op.Paired) (h : op.Makes s₁ outcome)
    (hopen : s₁.closed = false) (hstays : outcome.2.closed = false)
    (hmatched : s₁.Matched i pieces sent) :
    outcome.2.Matched i pieces
      (sent ++ if gaveUp outcome.1 then [] else op.request?.toList) := by
  -- an operation that sends no request and takes no answer
  have hidle : ∀ {s' : Session τ κ}, s'.inbox = s₁.inbox → s'.answers = s₁.answers →
      s'.Matched i pieces (sent ++ []) := by
    intro s' hinbox hanswers
    rw [List.append_nil]
    exact ⟨hinbox.trans hmatched.inbox, hanswers ▸ hmatched.answers⟩
  cases h with
  | fatal | close =>
    -- a session that ends is excluded by `hstays`
    rw [(Session.close_of_open hopen).1] at hstays
    cases hstays
  | @call c r a answers hr ha =>
    -- settling the result changes the registry at most, so the pop is all that concerns the queue
    obtain ⟨registry, hook, queued, hsettle⟩ :=
      Session.settle_eq (c.outcome a) ({ s₁ with answers } : Session τ κ)
    rw [gaveUp_of_failsOnly (c.failsOnly_outcome a)]
    simp only [request?, hr, hsettle]
    exact hmatched.pop ha rfl rfl
  | @exchange r a answers ha =>
    rw [gaveUp_of_failsOnly ((failsOnly_answerOutcome a).map _)]
    exact hmatched.pop ha rfl rfl
  | @refused c e he =>
    -- no request was made, so there is none to be answered
    obtain ⟨count, -, rfl, -⟩ := Call.request_error he
    simp only [request?, he]
    exact hidle rfl rfl
  -- these two are what pairing rules out
  | send | await => exact hpaired.elim
  | starved | poll | feed | take | setHook => exact hidle rfl rfl

/-- A call that sends its request and does not end the session takes the oldest answer, and its
result is what it makes of it; or it gives up, if there is none and none can be received. -/
theorem Makes.answered_or_starved {c : Call} {r : Request} {s₁ : Session τ κ}
    {outcome : Except SessionError Reply × Session τ κ} (hr : c.request = .ok r)
    (hresult : isFatal outcome.1 = false) (h : Makes s₁ (.call c) outcome) :
    (∃ a answers, s₁.answers = a :: answers ∧ outcome.1 = c.outcome a) ∨
      outcome = (.error .noDataSource, s₁) ∧ s₁.answers = [] ∧
        Transport.canReceive s₁.transport = false := by
  cases h with
  | fatal he => exact absurd (he.symm.trans hresult) (by simp)
  | call hr ha => exact .inl ⟨_, _, ha, rfl⟩
  | refused he => cases hr.symm.trans he
  | starved hnone hcannot => exact .inr ⟨rfl, hnone, hcannot⟩

/-- An operation that leaves the session open keeps the answers matched. -/
theorem matched_step (op : Operation) {s : Session τ κ} {i : Inbox} {pieces : List Bytes}
    {sent : List Request} (hpaired : op.Paired) (hopen : s.closed = false)
    (hstays : (op.run s).2.closed = false) (hmatched : s.Matched i pieces sent) :
    (op.run s).2.Matched i (pieces ++ op.pieces s) (sent ++ op.answered s) := by
  obtain ⟨s₁, htakes, hmakes⟩ := op.run_makes hopen
  have hopen₁ : s₁.closed = false := htakes.closed.trans hopen
  rw [Operation.answered, op.sent_of_not_fatal hopen (hmakes.not_fatal hopen₁ hstays)]
  exact hmakes.matched hpaired hopen₁ hstays (hmatched.takes htakes)

/-! ### Transports that can receive -/

/-- Over a transport that can receive nothing is given up. -/
theorem gaveUp_run (hcan : ∀ t : τ, Transport.canReceive t = true) (op : Operation)
    (s : Session τ κ) : gaveUp (op.run s).1 = false := by
  cases hclosed : s.closed with
  | true =>
    have hidles := op.run_idles hclosed
    generalize op.run s = outcome at hidles
    cases hidles with
    | closed | take | close | setHook => rfl
    | refused he =>
      obtain ⟨count, -, rfl, -⟩ := Call.request_error he
      rfl
  | false =>
    -- giving up is told by one error, which no other ending of an operation has
    obtain ⟨s₁, -, hmakes⟩ := op.run_makes hclosed
    generalize op.run s = outcome at hmakes
    cases hmakes with
    | fatal he => exact gaveUp_of_isFatal he
    | @call c r a answers hr ha => exact gaveUp_of_failsOnly (c.failsOnly_outcome a)
    | exchange | await => exact gaveUp_of_failsOnly ((failsOnly_answerOutcome _).map _)
    | refused he =>
      obtain ⟨count, -, rfl, -⟩ := Call.request_error he
      rfl
    | starved hnone hcannot =>
      rw [hcan] at hcannot
      cases hcannot
    | send | poll | feed | take | close | setHook => rfl

/-- So each request that is sent is answered. -/
theorem answered_eq_sent (hcan : ∀ t : τ, Transport.canReceive t = true) :
    (answered : Operation → Session τ κ → List Request) = sent := by
  funext op s
  exact if_neg (ne_true_of_eq_false (op.gaveUp_run hcan s))

theorem Makes.answered {c : Call} {r : Request} {s₁ : Session τ κ}
    {outcome : Except SessionError Reply × Session τ κ}
    (hcan : ∀ t : τ, Transport.canReceive t = true) (hr : c.request = .ok r)
    (hresult : isFatal outcome.1 = false) (h : Makes s₁ (.call c) outcome) :
    ∃ a answers, s₁.answers = a :: answers ∧ outcome.1 = c.outcome a := by
  rcases h.answered_or_starved hr hresult with htaken | ⟨-, -, hcannot⟩
  · exact htaken
  · rw [hcan] at hcannot
    cases hcannot

theorem matched_run (op : Operation) {s : Session τ κ} {i : Inbox} {pieces : List Bytes}
    {sent : List Request} (hcan : ∀ t : τ, Transport.canReceive t = true) (hpaired : op.Paired)
    (hopen : s.closed = false) (hstays : (op.run s).2.closed = false)
    (hmatched : s.Matched i pieces sent) :
    (op.run s).2.Matched i (pieces ++ op.pieces s) (sent ++ op.sent s) := by
  rw [← answered_eq_sent hcan]
  exact op.matched_step hpaired hopen hstays hmatched

end Operation

namespace Session

variable {τ κ : Type} [Transport τ] [Capability κ]

/-- **Over a run that leaves the session open the answers stay matched** to the requests that were
not given up. The induction is on the operations from the last one, since an open session has been
open all the time. -/
theorem Matched.run {operations : List Operation} {s : Session τ κ} {i : Inbox}
    (hpaired : ∀ op ∈ operations, op.Paired) (hopen : (after operations s).closed = false)
    (h : s.Matched i [] []) : (Session.after operations s).Matched i
      (gather Operation.pieces operations s) (gather Operation.answered operations s) := by
  induction operations using List.reverseRecOn with
  | nil => exact h
  | append_singleton operations op ih =>
    -- the operations in front of the last one left the session open, or else it would be closed now
    rw [after_append] at hopen ⊢
    rw [gather_concat, gather_concat]
    have hbefore : (Session.after operations s).closed = false := Operation.open_of_run hopen
    have hmatched := ih (fun op hop => hpaired op (List.mem_append_left _ hop)) hbefore
    exact op.matched_step (hpaired op (by simp)) hbefore hopen hmatched

theorem Matched.after {operations : List Operation} {s : Session τ κ} {i : Inbox}
    (hcan : ∀ t : τ, Transport.canReceive t = true) (hpaired : ∀ op ∈ operations, op.Paired)
    (hopen : (after operations s).closed = false) (h : s.Matched i [] []) :
    (Session.after operations s).Matched i (gather Operation.pieces operations s)
      (gather Operation.sent operations s) := by
  rw [← Operation.answered_eq_sent hcan]
  exact h.run hpaired hopen

omit [Capability κ] in
/-- A call that has sent a request does not refuse its arguments. -/
theorem sendRequest_of_sent {c : Call} {r : Request} {s : Session τ κ}
    (h : (Operation.call c).sent s = [r]) :
    c.request = .ok r ∧ ∃ s', sendRequest r s = (.ok (), s') := by
  have hrequest : (Operation.call c).request? = c.request.toOption := rfl
  unfold Operation.sent at h
  -- a request was sent, so there is one and the send has succeeded
  split at h
  · cases h
  next r' hr' =>
    rw [hrequest] at hr'
    split at h
    next u s' hsend =>
      obtain rfl : r' = r := (List.cons.inj h).1
      refine ⟨?_, s', hsend⟩
      cases hc : c.request with
      | error e => rw [hc] at hr'; cases hr'
      | ok r => rw [hc] at hr'; exact congrArg Except.ok (Option.some.inj hr')
    · cases h

omit [Capability κ] in
/-- And the session was open, since one that has ended sends nothing. -/
theorem request_of_sent {c : Call} {r : Request} {s : Session τ κ}
    (h : (Operation.call c).sent s = [r]) : c.request = .ok r ∧ s.closed = false := by
  obtain ⟨hrequest, s', hsend⟩ := sendRequest_of_sent h
  exact ⟨hrequest, (sendRequest_ok hsend).1⟩

/-- **Answers are matched to requests in their order.** A session over a transport that can receive
has run through operations that wait for what they send. A call then sends a request and does not
fail fatally. Let `stream` be any stream that begins with what has been heard by then. The answer of
the stream whose place is the number of requests sent before is the one that the call has returned:
what it makes of this answer is its result, which is a success only if the rcode is zero, and the
server's error if it is negative. And the answers heard so far are as many as the requests sent,
with those that are queued behind them. -/
theorem call_outcome {transport : τ} {config : Config} {own : Option (CapabilityTable κ)}
    {shared : CapabilityTable κ} {before : List Operation} {c : Call} {r : Request} {stream : Bytes}
    (hcan : ∀ t : τ, Transport.canReceive t = true) (hpaired : ∀ op ∈ before, op.Paired)
    (hsent : (Operation.call c).sent (after before (create transport config own shared)) = [r])
    (hresult : isFatal (c.run (after before (create transport config own shared))).1 = false)
    (hstream : (gather Operation.pieces (before ++ [.call c])
      (create transport config own shared)).flatten <+: stream)
    (hx : MessagePack.Walk.Exact config.messageLimit stream.length) :
    let s₀ := create transport config own shared
    let s := after before s₀
    let answersOf (bytes : Bytes) : List Answer :=
      answersIn ((Inbox.withLimit config.messageLimit).feed bytes).drain.1.packets
    ∃ a, (answersOf stream)[(gather Operation.sent before s₀).length]? = some a ∧ a.rcode ≤ 0 ∧
      (c.run s).1 = c.outcome a ∧ (∀ reply, (c.run s).1 = .ok reply → a.rcode = 0) ∧
      (a.rcode < 0 → (c.run s).1 = .error (.server a.rcode a.errorMessage)) ∧
      ∃ taken, taken.length = (gather Operation.sent (before ++ [.call c]) s₀).length ∧
        answersOf (gather Operation.pieces (before ++ [.call c]) s₀).flatten =
          taken ++ (c.run s).2.answers := by
  intro s₀ s answersOf
  obtain ⟨hr, hopen⟩ := request_of_sent hsent
  have hmatched : s.Matched _ _ _ := Matched.after hcan hpaired hopen ⟨rfl, [], rfl, rfl⟩
  obtain ⟨s₁, htakes, hmakes⟩ := (Operation.call c).run_makes hopen
  have hmatched₁ := hmatched.takes htakes
  -- the call takes the answer that belongs to its request
  obtain ⟨a, answers, ha, hrun⟩ := hmakes.answered hcan hr hresult
  have hget := hmatched₁.getElem?_eq ha
  -- it does not end the session, so the answers are still matched
  have hstays := hmakes.stays (htakes.closed.trans hopen) rfl hresult
  obtain ⟨-, taken, hanswers, hlength⟩ :=
    Operation.matched_run (.call c) hcan trivial hopen hstays hmatched
  rw [← gather_concat] at hget hanswers hlength
  -- what was heard is a front part of the stream, so the answer has the same place in the stream
  have hstreamed : (answersOf stream)[(gather Operation.sent before s₀).length]? = some a := by
    -- an answer keeps its place when more packets come behind
    obtain ⟨hlt, hplace⟩ := List.getElem?_eq_some_iff.1 hget
    have hprefix : answersIn (Inbox.packetsIn _ _) <+: answersOf stream :=
      (Inbox.packetsIn_prefix hx hstream).filterMap _
    rw [List.prefix_iff_getElem?.1 hprefix _ hlt, hplace]
  have hle : a.rcode ≤ 0 := rcode_le_zero_of_mem_drain (List.mem_of_getElem? hstreamed)
  rw [Inbox.packetsIn_withLimit (hx.mono hstream.length_le)] at hanswers
  -- an rcode that is not positive and not negative is zero, and a success excludes a negative one
  refine ⟨a, hstreamed, hle, hrun, ?_, ?_, taken, hlength, hanswers⟩
  · intro reply hreply
    have hnegative : ¬ a.rcode < 0 := by
      intro hnegative
      rw [hrun, c.outcome_of_negative hnegative] at hreply
      cases hreply
    exact Int64.le_antisymm hle (Int64.not_lt.1 hnegative)
  · intro hnegative
    rw [hrun]
    exact c.outcome_of_negative hnegative

/-- A device that appears, and the answer that tells what one of its registers holds. -/
def registerStream : List Packet :=
  [.event (.added "FAOUT-01"), .answer (.success (.ofNat64 7))]

theorem registerStream_gets :
    ∀ p ∈ registerStream, readPackets.Gets MessagePack.defaultMessageLimit p.toValue p := by
  intro p hp
  rcases List.mem_cons.1 hp with rfl | hp
  · refine ⟨⟨⟨by decide, trivial, ?_, trivial⟩, by decide⟩, by decide, rfl⟩
    show (utf8 _).length < _
    decide
  · obtain rfl := List.mem_singleton.1 hp
    exact ⟨⟨⟨by decide, trivial, trivial, trivial⟩, by decide⟩, by decide, rfl⟩

/-- A session that reads the register gets the word out of the answer behind the event. -/
theorem call_outcome_readReg :
    let c : Call := .readReg "FAOUT-01" 0 1
    let s : Session Scripted Known :=
      create { arrivals := [.data (encodePackets registerStream)] } {} none {}
    (Operation.call c).sent s = [.readReg "FAOUT-01" 0 1] ∧ isFatal (c.run s).1 = false ∧
      (gather Operation.pieces [.call c] s).flatten <+: encodePackets registerStream ∧
      ∃ a : Answer, (c.run s).1 = c.outcome a ∧ a.rcode ≤ 0 := by
  intro c s
  -- the arrivals are decoded at once, as they fit one receive
  have hdrain : (s.inbox.feed (encodePackets registerStream)).drain =
      (⟨registerStream, none⟩, s.inbox) :=
    Inbox.drain_encodePackets (by decide) registerStream_gets
  obtain ⟨b, block, hblock, hsize⟩ : ∃ b block, encodePackets registerStream = b :: block ∧
      block.length < s.config.bufferSize := ⟨_, _, rfl, by decide⟩
  have harrivals : s.transport.arrivals = [.data (b :: block)] := by
    rw [← hblock]
    rfl
  rw [hblock] at hdrain ⊢
  obtain ⟨⟨s', hcall⟩, hheard⟩ := call_scripted (r := .readReg "FAOUT-01" 0 1) rfl rfl ⟨rfl, rfl⟩
    harrivals hsize (by rw [hdrain]) (by rw [hdrain]; rfl) (by decide)
  have hrun : c.run s = (.ok (.word 7), s') := Call.run_of_answer rfl hcall
  have hresult : isFatal (c.run s).1 = false := by
    rw [hrun]
    rfl
  have hsent : (Operation.call c).sent s = [.readReg "FAOUT-01" 0 1] :=
    Operation.sent_of_not_fatal (.call c) rfl hresult
  -- the call hears the one block, since no answer was there before
  have hpieces : (gather Operation.pieces [.call c] s).flatten = b :: block := by
    obtain ⟨-, transport, hsend, -⟩ := call_ok hcall
    rw [hsend] at hheard
    show ((Operation.call c).pieces s ++ []).flatten = _
    have hexchange : (Operation.call c).pieces s = s.exchangePieces (.readReg "FAOUT-01" 0 1) := rfl
    rw [List.append_nil, hexchange, exchangePieces, hsend]
    exact (flatten_awaitedPieces _).trans hheard
  have hprefix : (gather Operation.pieces [.call c] s).flatten <+: b :: block :=
    hpieces ▸ List.prefix_refl _
  have hpaired : ∀ op ∈ ([] : List Operation), op.Paired := fun _ hop => by cases hop
  obtain ⟨a, -, hle, houtcome, -⟩ :=
    call_outcome (fun _ => rfl) hpaired hsent hresult hprefix (.inl (by decide))
  exact ⟨hsent, hresult, hprefix, a, houtcome, hle⟩

end Session

end BoardLink
