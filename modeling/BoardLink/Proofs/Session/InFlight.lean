import BoardLink.Proofs.Session.Correlation
import BoardLink.Proofs.Wire.RoundTrip

/-!
# Requests that were given up

A call sends its request before it looks whether an answer can be had. Over a transport that cannot
receive it gives up if no answer is queued: the error is not fatal, the session stays open, and the
answer to the request is still to come. When its bytes are fed to the session the answer waits in
the queue, and the next call takes it for its own.

So requests and answers are counted apart here, and not only those of a transport that can receive.
Each request that is given up moves the answers of all later ones by one place.

* `Session.length_sent` — a request is answered or given up;
* `Session.call_outcome_behind` — which answer a call takes, over any transport.
-/

namespace BoardLink

open BoardLink.Wire

namespace Session

section Counting

variable {τ κ : Type} [Transport τ] [Capability κ]

/-- Each request that was sent was answered or given up. -/
theorem length_sent (operations : List Operation) (s : Session τ κ) :
    (gather Operation.answered operations s).length +
        (gather Operation.abandoned operations s).length =
      (gather Operation.sent operations s).length := by
  induction operations generalizing s with
  | nil => rfl
  | cons op operations ih =>
    have hop : (op.answered s).length + (op.abandoned s).length = (op.sent s).length := by
      -- giving up decides on which of the two sides the requests of the operation stand
      unfold Operation.answered Operation.abandoned
      cases gaveUp (op.run s).1 with
      | true => exact Nat.zero_add _
      | false => exact Nat.add_zero _
    have hlater := ih (op.run s).2
    simp only [gather, List.length_append]
    omega

/-- Over a transport that can receive none is given up. -/
theorem abandoned_eq_nil (hcan : ∀ t : τ, Transport.canReceive t = true)
    (operations : List Operation) (s : Session τ κ) :
    gather Operation.abandoned operations s = [] := by
  -- where the transport can receive, all that is sent is answered, and nothing is left over
  have hcount := length_sent operations s
  rw [Operation.answered_eq_sent hcan] at hcount
  exact List.eq_nil_of_length_eq_zero (by omega)

/-- **The answers fall behind by the requests that were given up.** A session over any transport has
run through operations that wait for what they send, and a call then sends a request and does not
fail fatally. `sent` are the requests sent before it, and `left` those of them that were given up.
Let `stream` be any stream that begins with what has been heard when the call returns.

* The answers consumed by the time that the call sends its request are as many as the requests that
  were not given up, and behind them come those that are queued. So the answers to all requests sent
  before have been consumed exactly if none was given up.
* Either the call gives up, too: no answer is queued, and the transport cannot receive one. Or it
  returns what it makes of the answer of the stream whose place is that of its request, less the
  requests given up. So it is its own answer exactly if none was, and else that of an earlier call.
* Over a transport that can receive none is given up. -/
theorem call_outcome_behind {transport : τ} {config : Config} {own : Option (CapabilityTable κ)}
    {shared : CapabilityTable κ} {before : List Operation} {c : Call} {r : Request} {stream : Bytes}
    (hpaired : ∀ op ∈ before, op.Paired)
    (hsent : (Operation.call c).sent (after before (create transport config own shared)) = [r])
    (hresult : isFatal (c.run (after before (create transport config own shared))).1 = false)
    (hstream : (gather Operation.pieces (before ++ [.call c])
      (create transport config own shared)).flatten <+: stream)
    (hx : MessagePack.Walk.Exact config.messageLimit stream.length) :
    let s₀ := create transport config own shared
    let s := after before s₀
    let answersOf (bytes : Bytes) : List Answer :=
      answersIn ((Inbox.withLimit config.messageLimit).feed bytes).drain.1.packets
    let sent := gather Operation.sent before s₀
    let left := gather Operation.abandoned before s₀
    (∃ consumed, answersOf (gather Operation.pieces before s₀).flatten = consumed ++ s.answers ∧
        consumed.length + left.length = sent.length ∧
        (consumed.length = sent.length ↔ left = [])) ∧
      ((c.run s).1 = .error .noDataSource ∧ (c.run s).2.answers = [] ∧
          Transport.canReceive (c.run s).2.transport = false ∨
        ∃ a, (answersOf stream)[sent.length - left.length]? = some a ∧
          (c.run s).1 = c.outcome a) ∧
      ((∀ t : τ, Transport.canReceive t = true) → left = []) := by
  intro s₀ s answersOf sent left
  obtain ⟨hr, hopen⟩ := request_of_sent hsent
  have hcount : (gather Operation.answered before s₀).length + left.length = sent.length :=
    length_sent before s₀
  -- the invariant of correlation: what was heard is what was consumed, and behind it what is queued
  have hmatched : s.Matched _ _ _ := Matched.run hpaired hopen ⟨rfl, [], rfl, rfl⟩
  refine ⟨?_, ?_, fun hcan => abandoned_eq_nil hcan before s₀⟩
  -- the answers consumed so far: the pieces in front of the call are the front of the stream, too
  · obtain ⟨consumed, hanswers, hlength⟩ := hmatched.answers
    have hbefore : (gather Operation.pieces before s₀).flatten <+: stream := by
      rw [gather_concat, List.flatten_append] at hstream
      exact (List.prefix_append _ _).trans hstream
    have hpackets := Inbox.packetsIn_withLimit (hx.mono hbefore.length_le)
    rw [← hlength] at hcount
    refine ⟨consumed, ?_, hcount, ?_⟩
    · rw [← hanswers]
      exact congrArg answersIn hpackets.symm
    · rw [← List.length_eq_zero_iff]
      omega
  -- the call itself, behind what it takes in while it waits
  · obtain ⟨s₁, htakes, hmakes⟩ := (Operation.call c).run_makes hopen
    have hmatched₁ := hmatched.takes htakes
    rcases hmakes.answered_or_starved hr hresult with
      ⟨a, answers, ha, hrun⟩ | ⟨hrun, hnone, hcannot⟩
    -- answered: its place among the answers is the number of requests answered before it
    · have hget := hmatched₁.getElem?_eq ha
      have hplace : (gather Operation.answered before s₀).length = sent.length - left.length := by
        omega
      rw [← gather_concat, hplace] at hget
      exact .inr ⟨a, Inbox.getElem?_answersIn_of_prefix hx hstream hget, hrun⟩
    -- given up: nothing is queued and nothing can be received
    · have hgave : c.run s = (.error .noDataSource, s₁) := hrun
      rw [hgave]
      exact .inl ⟨rfl, hnone, hcannot⟩

end Counting

/-! ### A session that is fed -/

/-- A channel that can only send, and takes whatever it is offered. -/
def Plain (t : SendOnly) : Prop := t.sender.script = [] ∧ t.sender.limit = none

theorem sendRequest_plain {κ : Type} {s : Session SendOnly κ} (hopen : s.closed = false)
    (hplain : Plain s.transport) (r : Request) :
    ∃ transport, Plain transport ∧ sendRequest r s = (.ok (), { s with transport }) := by
  obtain ⟨hscript, hlimit⟩ := hplain
  -- a request is never empty, so that it is offered in one piece and taken as a whole
  obtain ⟨b, rest, hencode⟩ : ∃ b rest, r.toValue.encode = b :: rest :=
    List.exists_cons_of_length_pos r.toValue.length_encode_pos
  have hsend : Transport.send s.transport (b :: rest) = (.ok (rest.length + 1),
      { s.transport with sender.accepted := s.transport.sender.accepted ++ b :: rest }) := by
    show ((s.transport.sender.send (b :: rest)).1,
      { s.transport with sender := (s.transport.sender.send (b :: rest)).2 }) = _
    rw [Sender.send_all hscript hlimit]
    rfl
  refine ⟨{ s.transport with sender.accepted := s.transport.sender.accepted ++ b :: rest },
    ⟨hscript, hlimit⟩, ?_⟩
  rw [sendRequest_of_open hopen, Request.encode, hencode]
  exact sendAll_of_taken hsend

variable {κ : Type} [Capability κ]

/-- A call whose answer is not there gives up, and has heard nothing. -/
theorem call_plain_none {s : Session SendOnly κ} (hopen : s.closed = false)
    (hplain : Plain s.transport) (hanswers : s.answers = []) (r : Request) :
    ∃ transport, Plain transport ∧ s.exchangePieces r = [] ∧
      call r s = (.error .noDataSource, { s with transport }) := by
  obtain ⟨transport, hplain', hsend⟩ := sendRequest_plain hopen hplain r
  -- the send leaves the queue as it was, empty, and there is nothing to wait for
  have hnone : ({ s with transport } : Session SendOnly κ).answers = [] := hanswers
  have hcannot : ¬ Transport.canReceive transport = true := Bool.false_ne_true
  refine ⟨transport, hplain', ?_, ?_⟩
  · rw [exchangePieces, hsend]
    exact (awaitedPieces_of_none hnone).trans (if_neg hcannot)
  · rw [call_of_sent hsend hopen]
    exact (awaitAnswer_of_none hnone).trans (if_neg hcannot)

/-- A call that finds an answer takes it, and has heard nothing either. -/
theorem call_plain_queued {s : Session SendOnly κ} {a : Answer} {answers : List Answer}
    (hopen : s.closed = false) (hplain : Plain s.transport) (hanswers : s.answers = a :: answers)
    (r : Request) : s.exchangePieces r = [] ∧ ∃ s', call r s = (answerOutcome a, s') := by
  obtain ⟨transport, -, hsend⟩ := sendRequest_plain hopen hplain r
  -- what is queued is taken before the transport is asked for more
  have hsome : ({ s with transport } : Session SendOnly κ).answers = a :: answers := hanswers
  constructor
  · rw [exchangePieces, hsend]
    exact awaitedPieces_of_answer hsome
  · rw [call_of_sent hsend hopen]
    exact ⟨_, awaitAnswer_of_answers hsome⟩

/-- A session over a channel that can only send reads a register, and gives up. The answer is fed to
it, and a call that reads another register returns what the first one asked for. -/
theorem call_outcome_behind_fed :
    let first : Operation := .call (.readReg "FAOUT-01" 0 1)
    let c : Call := .readReg "FAOUT-01" 0 3
    let a : Answer := .success (.ofNat64 17)
    let fed : Bytes := encodePackets [.answer a]
    let s₀ : Session SendOnly Known := create {} {} none {}
    let s := after [first, .feed fed] s₀
    (Operation.call c).sent s = [.readReg "FAOUT-01" 0 3] ∧ isFatal (c.run s).1 = false ∧
      (gather Operation.pieces [first, .feed fed, .call c] s₀).flatten <+: fed ∧
      gather Operation.sent [first, .feed fed] s₀ = [.readReg "FAOUT-01" 0 1] ∧
      gather Operation.abandoned [first, .feed fed] s₀ = [.readReg "FAOUT-01" 0 1] ∧
      (∃ b, (answersIn (s₀.inbox.feed fed).drain.1.packets)[1 - 1]? = some b ∧
        (c.run s).1 = c.outcome b) ∧
      (c.run s).1 = .ok (.word 17) := by
  intro first c a fed s₀ s
  obtain ⟨transport, hplain, hnothing, hfirst⟩ :=
    call_plain_none (s := s₀) rfl ⟨rfl, rfl⟩ rfl (.readReg "FAOUT-01" 0 1)
  have hrun₁ : first.run s₀ = (.error .noDataSource, { s₀ with transport }) := by
    show (Call.readReg "FAOUT-01" 0 1).run s₀ = _
    rw [Call.run_eq]
    simp only [Call.request, hfirst]
  -- the answer is fed, and waits in the queue
  have hgets : ∀ p ∈ [Packet.answer a],
      readPackets.Gets MessagePack.defaultMessageLimit p.toValue p := by
    intro p hp
    obtain rfl := List.mem_singleton.1 hp
    refine Packet.gets_answer (by decide) ?_ (by decide) (by decide)
    intro v hv
    obtain rfl := List.mem_singleton.1 hv
    exact (MessagePack.Value.flat_ofNat64 17).mono (by decide)
  let s₁ : Session SendOnly Known := { s₀ with transport }
  have hdrain : (s₁.inbox.feed fed).drain = (⟨[.answer a], none⟩, s₁.inbox) :=
    Inbox.drain_encodePackets (by decide) hgets
  have hrun₂ : (Operation.feed fed).run s₁ = (.ok .done, s₁.hear fed) := by
    show ((fun _ => Reply.done) <$> Session.feed fed) s₁ = _
    rw [SessionM.map_apply, feed_of_open rfl, deliver_eq, hdrain]
    rfl
  have hs₁ : (first.run s₀).2 = s₁ := congrArg Prod.snd hrun₁
  have hs : s = s₁.hear fed := by
    show ((Operation.feed fed).run (first.run s₀).2).2 = _
    rw [hs₁, hrun₂]
  have htakes : s₁.Takes [fed] s := hs ▸ Takes.of_hear s₁ fed
  have hanswers : s.answers = [a] := by
    rw [htakes.answers, Inbox.packetsIn_singleton, hdrain]
    rfl
  have htransport : s.transport = transport := by
    -- feeding hands over bytes and uses no channel, so it is still a plain one
    rw [hs]
    exact dispatchAll_transport _ _
  -- the call finds the answer to the first request in front of the queue
  obtain ⟨hsilent, s', hcall⟩ := call_plain_queued (htakes.closed.trans rfl)
    (htransport ▸ hplain) hanswers (.readReg "FAOUT-01" 0 3)
  have hrun : (c.run s).1 = .ok (.word 17) := by
    rw [Call.run_of_call rfl hcall]
    rfl
  have hresult : isFatal (c.run s).1 = false := by
    rw [hrun]
    rfl
  have hsent : (Operation.call c).sent s = [.readReg "FAOUT-01" 0 3] :=
    (Operation.call c).sent_of_not_fatal (htakes.closed.trans rfl) hresult
  have hsent₁ : first.sent s₀ = [.readReg "FAOUT-01" 0 1] :=
    first.sent_of_not_fatal rfl (by rw [hrun₁]; rfl)
  -- nothing has been heard but what was fed
  have hpieces : (gather Operation.pieces [first, .feed fed, .call c] s₀).flatten <+: fed := by
    have hpieces₁ : first.pieces s₀ = [] := hnothing
    have hpieces₂ : (Operation.feed fed).pieces s₁ = [fed] := rfl
    have hpieces₃ : (Operation.call c).pieces (s₁.hear fed) = [] := by
      rw [← hs, Operation.pieces, if_neg (ne_true_of_eq_false (htakes.closed.trans rfl))]
      exact hsilent
    simp only [gather, hpieces₁, hs₁, hpieces₂, hrun₂, hpieces₃]
    exact List.prefix_refl _
  have hleft : gather Operation.abandoned [first, .feed fed] s₀ = [.readReg "FAOUT-01" 0 1] := by
    have hleft₁ : first.abandoned s₀ = [.readReg "FAOUT-01" 0 1] := by
      rw [Operation.abandoned, hrun₁, hsent₁]
      rfl
    have hleft₂ : (Operation.feed fed).abandoned s₁ = [] := ite_self []
    simp only [gather, hleft₁, hs₁, hleft₂]
    rfl
  have hboth : gather Operation.sent [first, .feed fed] s₀ = [.readReg "FAOUT-01" 0 1] := by
    have hsent₂ : (Operation.feed fed).sent s₁ = [] := rfl
    simp only [gather, hsent₁, hs₁, hsent₂]
    rfl
  -- both operations in front of the call wait for what they send
  have hpaired : ∀ op ∈ [first, .feed fed], op.Paired := by
    simp [first, Operation.Paired]
  obtain ⟨-, hanswer, -⟩ :=
    call_outcome_behind hpaired hsent hresult hpieces (.inl (by decide))
  refine ⟨hsent, hresult, hpieces, hboth, hleft, ?_, hrun⟩
  -- the call has an answer, so of the two outcomes it is the one that takes it from the stream
  rcases hanswer with ⟨hgave, -⟩ | hown
  · cases hrun.symm.trans hgave
  · rwa [hboth, hleft] at hown

end Session

end BoardLink
