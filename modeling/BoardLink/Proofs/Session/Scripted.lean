import BoardLink.Proofs.Session.Absorb
import BoardLink.Proofs.Session.Calls
import BoardLink.Transport.Scripted

/-!
# Sessions over a script

A script that lets a session send what it likes and brings what it waits for in one block. On such a
script a call does what it is meant to do, and what it does can be told without running it.

* `Session.call_scripted` — a call returns the answer that the block begins with, and has heard the
  block.
-/

namespace BoardLink

open BoardLink.Wire

/-- A sender without a script and without a limit takes all that it is offered. -/
theorem Sender.send_all {s : Sender} (hscript : s.script = []) (hlimit : s.limit = none)
    (offered : Bytes) :
    s.send offered = (.ok offered.length, { s with accepted := s.accepted ++ offered }) := by
  simp [Sender.send, Sender.accept, hscript, hlimit]

namespace Session

variable {κ : Type}

/-- A sender that takes whatever it is offered. -/
def Eager (t : Scripted) : Prop := t.sender.script = [] ∧ t.sender.limit = none

theorem sendAll_scripted {s : Session Scripted κ} (heager : Eager s.transport) (bytes : Bytes) :
    ∃ accepted,
      sendAll bytes s = (.ok (), { s with transport.sender.accepted := accepted }) := by
  obtain ⟨hscript, hlimit⟩ := heager
  -- nothing to send is sent at once, else the whole of it is taken by the first send
  cases bytes with
  | nil => exact ⟨s.transport.sender.accepted, by rw [sendAll]⟩
  | cons b rest =>
    have hsend : Transport.send s.transport (b :: rest) = (.ok (rest.length + 1),
        { s.transport with sender.accepted := s.transport.sender.accepted ++ b :: rest }) := by
      show ((s.transport.sender.send (b :: rest)).1,
        { s.transport with sender := (s.transport.sender.send (b :: rest)).2 }) = _
      rw [Sender.send_all hscript hlimit]
      rfl
    exact ⟨s.transport.sender.accepted ++ b :: rest, sendAll_of_taken hsend⟩

/-- A block arrives in one piece if there is room for it. -/
theorem receive_scripted {s : Session Scripted κ} {b : UInt8} {block : Bytes}
    {arrivals : List Arrival} (harrivals : s.transport.arrivals = .data (b :: block) :: arrivals)
    (hsize : block.length < s.config.bufferSize) :
    Transport.receive s.transport s.config.bufferSize = (.ok (b :: block),
      { s.transport with arrivals, receives := s.transport.receives + 1 }) := by
  -- the block fits the buffer, so no part of it is left for the next receive
  show Scripted.receive _ _ = _
  rw [Scripted.receive]
  simp only [harrivals]
  rw [if_neg (by rw [List.length_cons]; omega)]

theorem arriving_scripted {s : Session Scripted κ} {b : UInt8} {block : Bytes}
    {arrivals : List Arrival} (harrivals : s.transport.arrivals = .data (b :: block) :: arrivals)
    (hsize : block.length < s.config.bufferSize) : s.arriving = b :: block := by
  have hcan : Transport.canReceive s.transport = true := rfl
  rw [arriving, if_pos hcan, receive_scripted harrivals hsize]

variable [Capability κ]

/-- What a session is once a block has been delivered to it, whatever the transport is by then. -/
theorem receiveMore_scripted {s : Session Scripted κ} {b : UInt8} {block : Bytes}
    {arrivals : List Arrival} (harrivals : s.transport.arrivals = .data (b :: block) :: arrivals)
    (hsize : block.length < s.config.bufferSize)
    (hfault : (s.inbox.feed (b :: block)).drain.1.fault = none) :
    ∃ transport, receiveMore false s = (.ok (block.length + 1),
      ({ s with transport } : Session Scripted κ).hear (b :: block)) := by
  refine ⟨{ s.transport with arrivals, receives := s.transport.receives + 1 }, ?_⟩
  rw [receiveMore, receive_scripted harrivals hsize]
  simp only [deliver_eq, hfault]

/-- A session that waits takes the first answer of the block that arrives. -/
theorem awaitAnswer_scripted {s : Session Scripted κ} {b : UInt8} {block : Bytes}
    {arrivals : List Arrival} {a : Answer} {others : List Answer} (hanswers : s.answers = [])
    (harrivals : s.transport.arrivals = .data (b :: block) :: arrivals)
    (hsize : block.length < s.config.bufferSize)
    (hfault : (s.inbox.feed (b :: block)).drain.1.fault = none)
    (hin : answersIn (s.inbox.feed (b :: block)).drain.1.packets = a :: others)
    (hrcode : ¬ a.rcode < 0) :
    (∃ s', awaitAnswer s = (.ok a, s')) ∧ s.awaited = b :: block := by
  obtain ⟨transport, hmore⟩ := receiveMore_scripted harrivals hsize hfault
  obtain ⟨-, hqueue, -⟩ := hear_parts (b :: block) { s with transport }
  -- of the session that has received only its queue matters
  generalize ({ s with transport } : Session Scripted κ).hear (b :: block) = s₁ at hmore hqueue
  have hfirst : s₁.answers = a :: others := by rw [hqueue, hanswers, hin]; rfl
  have hcan : Transport.canReceive s.transport = true := rfl
  have houtcome : answerOutcome a = .ok a := by rw [answerOutcome, if_neg hrcode]
  refine ⟨⟨{ s₁ with answers := others }, ?_⟩, ?_⟩
  -- the queue was empty, so the first answer of the block is in front, and it is the one to return
  · rw [awaitAnswer_of_none hanswers, if_pos hcan, hmore]
    simp only [awaitAnswer_of_answers hfirst, houtcome]
  · rw [awaited_of_receive hanswers hcan hmore, awaited_of_answer hfirst,
      arriving_scripted harrivals hsize, List.append_nil]

/-- **A call returns the answer that arrives**, if the block that brings it brings no fault. -/
theorem call_scripted {s : Session Scripted κ} {r : Request} {b : UInt8} {block : Bytes}
    {arrivals : List Arrival} {a : Answer} {others : List Answer} (hopen : s.closed = false)
    (hanswers : s.answers = []) (heager : Eager s.transport)
    (harrivals : s.transport.arrivals = .data (b :: block) :: arrivals)
    (hsize : block.length < s.config.bufferSize)
    (hfault : (s.inbox.feed (b :: block)).drain.1.fault = none)
    (hin : answersIn (s.inbox.feed (b :: block)).drain.1.packets = a :: others)
    (hrcode : ¬ a.rcode < 0) :
    (∃ s', call r s = (.ok a, s')) ∧ (sendRequest r s).2.awaited = b :: block := by
  obtain ⟨accepted, hall⟩ := sendAll_scripted heager r.encode
  have hsend : sendRequest r s =
      (.ok (), { s with transport.sender.accepted := accepted }) := by
    rw [sendRequest_of_open hopen]
    exact hall
  have hopen' : ({ s with transport.sender.accepted := accepted } : Session Scripted κ).closed =
      false := hopen
  obtain ⟨⟨s', hawait⟩, hawaited⟩ := awaitAnswer_scripted
    (s := { s with transport.sender.accepted := accepted }) hanswers harrivals hsize hfault hin
    hrcode
  refine ⟨⟨s', ?_⟩, ?_⟩
  · rw [call_of_sent hsend hopen']
    exact hawait
  · rw [hsend]
    exact hawaited

end Session

end BoardLink
