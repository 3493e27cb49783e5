import BoardLink.Proofs.MessagePack.Agreement
import BoardLink.Proofs.Wire.Packets
import Mathlib.Data.List.Induction

/-!
# Reading on behind a fault

The two front ends of a client cut the same messages off a stream, but do not bear the same faults.
An inbox fails for good with the first one. The client's end reads on behind a message that could be
cut off, be it that it is nested too deeply or that it is no packet, because there it knows where the
next message begins. It is stuck where it does not: at a marker that begins no value, and at a
message above the limit. From then on it says the same, whatever arrives.

`ClientEnd.readOn` asks the end until it waits or is stuck, and `ClientEnd.readPieces` does so after
each piece of a stream.

* `ClientEnd.Agrees.goOn` — both ends keep in step until there is a fault;
* `ClientEnd.Reads.goOn` — the crux: what is read is the messages of the stream, one after the other,
  up to where the walk over the next one stops (`ClientEnd.Reads`);
* `ClientEnd.readPieces_agrees` — a whole stream.
-/

namespace BoardLink

open BoardLink.MessagePack

namespace Wire

/-- What a message that was cut off is to a client: a packet, or a fault of its own. -/
def Packet.ofMessage (message : Bytes) : Except Fault Packet :=
  match readValue readBudget message with
  | .ok (v, _) => Packet.ofValue v
  | .error why => .error (.invalidFormat (.malformed why))

/-- The fault of a walk that cannot go on, if it is one. -/
def walkFault? (limit : Nat) : Walk.Stop → Option Fault
  | .incomplete | .complete => none
  | .reserved => some (.invalidFormat (.malformed .reservedMarker))
  | .tooLarge needed => some (.tooManyBytes limit needed)

namespace ClientEnd

/-! ### One message -/

variable {e last : ClientEnd} {buffer rest : Bytes} {w : Walk}

/-- A message that was cut off is taken off the buffer, whatever it is, and the end is ready for the
next one. -/
theorem receive_of_complete (h : e.framer.walk.resume e.framer.limit buffer = (w, .complete)) :
    e.receive buffer = (some <$> Packet.ofMessage (buffer.take w.pos),
      ⟨{ limit := e.framer.limit }⟩, buffer.drop w.pos) := by
  -- both read the bytes of the message, the end behind its framer and `ofMessage` alone
  unfold receive receiveWith Framer.next Framer.readMessage Packet.ofMessage
  simp only [h]
  rcases readValue readBudget (buffer.take w.pos) with why | ⟨v, others⟩ <;> rfl

/-- Without one the buffer is left as it is, and the walk stays where it stopped. -/
theorem receive_of_stop {stop : Walk.Stop}
    (h : e.framer.walk.resume e.framer.limit buffer = (w, stop)) (hstop : stop ≠ .complete) :
    e.receive buffer =
      (match walkFault? e.framer.limit stop with
        | none => .ok none
        | some fault => .error fault,
      ⟨{ limit := e.framer.limit, walk := w }⟩, buffer) := by
  unfold receive receiveWith Framer.next
  rw [h]
  cases stop with
  | complete => exact absurd rfl hstop
  | incomplete | reserved | tooLarge => rfl

/-! ### Reading on -/

/-- Takes packets and faults off a buffer until the end waits for more, or is stuck: a fault that
takes nothing off would only come again. -/
def readOn (e : ClientEnd) (buffer : Bytes) : Framer.Taken Fault (Except Fault Packet) :=
  match h : e.receive buffer with
  | (.ok none, last, rest) => ⟨[], none, last.framer, rest⟩
  | (.ok (some p), last, rest) =>
    have := length_receive_lt h
    let more := last.readOn rest
    { more with items := .ok p :: more.items }
  | (.error fault, last, rest) =>
    if rest.length < buffer.length then
      let more := last.readOn rest
      { more with items := .error fault :: more.items }
    else ⟨[], some fault, last.framer, rest⟩
termination_by buffer.length

theorem readOn_eq (e : ClientEnd) (buffer : Bytes) : e.readOn buffer =
    match e.receive buffer with
    | (.ok none, last, rest) => ⟨[], none, last.framer, rest⟩
    | (.ok (some p), last, rest) =>
      { last.readOn rest with items := .ok p :: (last.readOn rest).items }
    | (.error fault, last, rest) =>
      if rest.length < buffer.length then
        { last.readOn rest with items := .error fault :: (last.readOn rest).items }
      else ⟨[], some fault, last.framer, rest⟩ := by
  rw [readOn]
  split <;> rename_i h <;> simp [h]

/-- Goes on reading when a piece arrives, unless the end is stuck. -/
def goOn (t : Framer.Taken Fault (Except Fault Packet)) (piece : Bytes) :
    Framer.Taken Fault (Except Fault Packet) :=
  match t.fault with
  | some _ => { t with rest := t.rest ++ piece }
  | none =>
    let later := (ClientEnd.mk t.framer).readOn (t.rest ++ piece)
    { later with items := t.items ++ later.items }

/-- Reads on after each piece of what arrives. -/
def readPieces (e : ClientEnd) (pieces : List Bytes) : Framer.Taken Fault (Except Fault Packet) :=
  pieces.foldl goOn ⟨[], none, e.framer, []⟩

theorem goOn_of_stuck {t : Framer.Taken Fault (Except Fault Packet)} {fault : Fault}
    (h : t.fault = some fault) (piece : Bytes) :
    goOn t piece = { t with rest := t.rest ++ piece } := by
  simp only [goOn, h]

theorem goOn_of_waiting {t : Framer.Taken Fault (Except Fault Packet)} (h : t.fault = none)
    (piece : Bytes) : goOn t piece =
      { (ClientEnd.mk t.framer).readOn (t.rest ++ piece) with
        items := t.items ++ ((ClientEnd.mk t.framer).readOn (t.rest ++ piece)).items } := by
  simp only [goOn, h]

/-! ### Up to the first fault -/

/-- **What an end reads and what an inbox takes are in step.** As long as there is no fault they have
yielded the same and have the same left. With a fault the inbox is done, and the end has come to the
same fault behind the same packets. -/
inductive Agrees : Framer.Taken Fault (Except Fault Packet) → Framer.Taken Fault Packet → Prop
  | open (items : List Packet) (framer : Framer) (rest : Bytes) :
    Agrees ⟨items.map .ok, none, framer, rest⟩ ⟨items, none, framer, rest⟩
  | failed {read : Framer.Taken Fault (Except Fault Packet)} {taken : Framer.Taken Fault Packet}
    {fault : Fault} (hfault : taken.fault = some fault)
    (hread : taken.items.map .ok ++ [.error fault] <+:
      read.items ++ read.fault.toList.map .error) : Agrees read taken

namespace Agrees

variable {read : Framer.Taken Fault (Except Fault Packet)} {taken : Framer.Taken Fault Packet}

/-- Packets in front do not matter. -/
theorem prepend (items : List Packet) (h : Agrees read taken) :
    Agrees { read with items := items.map .ok ++ read.items }
      { taken with items := items ++ taken.items } := by
  cases h with
  | «open» later framer rest =>
    simp only [← List.map_append]
    exact .open _ framer rest
  | failed hfault hread =>
    refine .failed hfault ?_
    rw [List.map_append, List.append_assoc, List.append_assoc]
    exact (List.prefix_append_right_inj _).2 hread

/-- One buffer. -/
theorem of_readOn (e : ClientEnd) (buffer : Bytes) :
    Agrees (e.readOn buffer) (e.framer.takeAll readPackets buffer) := by
  fun_induction readOn e buffer with
  | case1 e buffer last rest h =>
    rw [Framer.takeAll_eq, receive_eq_iff.1 h]
    exact .open [] last.framer rest
  | case2 e buffer p last rest h hlt more ih =>
    rw [Framer.takeAll_eq, receive_eq_iff.1 h]
    exact ih.prepend [p]
  | case3 e buffer fault last rest h hlt more ih =>
    -- the inbox is done here, whatever the end reads behind the fault
    rw [Framer.takeAll_eq, receive_eq_iff.1 h]
    exact .failed rfl (List.prefix_append [Except.error fault] _)
  | case4 e buffer fault last rest h hstuck =>
    -- a fault that takes nothing off ends both of them
    rw [Framer.takeAll_eq, receive_eq_iff.1 h]
    exact .failed rfl (List.prefix_refl _)

/-- **Both keep in step when a piece arrives.** -/
theorem goOn (piece : Bytes) (h : Agrees read taken) :
    Agrees (goOn read piece) (taken.extend readPackets piece) := by
  cases h with
  | «open» items framer rest => exact (of_readOn ⟨framer⟩ (rest ++ piece)).prepend items
  | failed hfault hread =>
    -- the inbox is done and yields no more; what the end reads is only added behind the fault
    have hdone : taken.extend readPackets piece = { taken with rest := taken.rest ++ piece } := by
      simp only [Framer.Taken.extend, hfault]
    rw [hdone]
    cases hstuck : read.fault with
    | some _ =>
      rw [goOn_of_stuck hstuck]
      exact .failed hfault hread
    | none =>
      rw [hstuck, Option.toList_none, List.map_nil, List.append_nil] at hread
      rw [goOn_of_waiting hstuck]
      refine .failed hfault (hread.trans ?_)
      rw [List.append_assoc]
      exact List.prefix_append _ _

end Agrees

/-! ### Behind a fault -/

/-- At no time the buffer holds more bytes than can be counted. A memory holds fewer. -/
def Fits (limit : Nat) (pieces : List Bytes) : Prop :=
  ∀ front piece, front ++ [piece] <+: pieces →
    Walk.Exact limit ((readPieces ⟨{ limit := limit }⟩ front).rest ++ piece).length

/-- **What was read off a stream is its messages**, one after the other and none left out, up to
where the walk over the next one stops. -/
structure Reads (limit : Nat) (stream : Bytes) (read : Framer.Taken Fault (Except Fault Packet)) :
    Prop where
  messages : ∃ messages : List Bytes, stream = messages.flatten ++ read.rest ∧
    read.items = messages.map Packet.ofMessage ∧ ∀ m ∈ messages, Spans 1 m
  keeps : read.framer.limit = limit
  fits : Walk.Exact limit read.rest.length
  stops : ∃ stop, stop ≠ .complete ∧ read.fault = walkFault? limit stop ∧
    Walk.start.resume limit read.rest = (read.framer.walk, stop)

namespace Reads

variable {limit : Nat} {stream : Bytes} {read : Framer.Taken Fault (Except Fault Packet)}

/-- A message in front. -/
theorem cons {message : Bytes} (hone : Spans 1 message) (h : Reads limit stream read) :
    Reads limit (message ++ stream)
      { read with items := Packet.ofMessage message :: read.items } where
  messages := by
    obtain ⟨messages, rfl, hitems, hall⟩ := h.messages
    refine ⟨message :: messages, ?_, ?_, List.forall_mem_cons.2 ⟨hone, hall⟩⟩
    · rw [List.flatten_cons, List.append_assoc]
    · rw [List.map_cons, ← hitems]
  keeps := h.keeps
  fits := h.fits
  stops := h.stops

/-- One buffer, from a walk that it can be found with. The induction is on its length; behind each
message the walk begins anew. -/
theorem of_readOn {w : Walk} {buffer : Bytes} (hreached : Walk.Reached limit buffer w)
    (hx : Walk.Exact limit buffer.length) :
    Reads limit buffer (readOn ⟨{ limit := limit, walk := w }⟩ buffer) := by
  induction hn : buffer.length using Nat.strongRecOn generalizing w buffer with
  | _ n ih =>
  -- the walk comes to what one comes to that begins now
  have hresume : w.resume limit buffer = Walk.start.resume limit buffer := by
    simpa using hreached.resume_eq hx []
  rw [readOn_eq]
  cases hw : Walk.start.resume limit buffer with
  | mk last stop =>
  rw [hw] at hresume
  -- either a message was cut off and the rest is a shorter buffer, or the walk has stopped in front
  by_cases hstop : stop = .complete
  · subst hstop
    have hreceive := receive_of_complete (e := ⟨{ limit := limit, walk := w }⟩) hresume
    obtain ⟨-, hone⟩ := Walk.spans_of_settled (.start buffer) hx hw
    -- the buffer is the message and what follows it
    obtain ⟨message, later, hcut, hmessage, hlater⟩ : ∃ message later, buffer = message ++ later ∧
        buffer.take last.pos = message ∧ buffer.drop last.pos = later :=
      ⟨_, _, (List.take_append_drop last.pos buffer).symm, rfl, rfl⟩
    rw [hmessage] at hreceive hone
    rw [hlater] at hreceive
    subst hcut
    have hlt : later.length < (message ++ later).length := by
      have := hone.le_length
      rw [List.length_append]
      omega
    have hmore := ih later.length (hn ▸ hlt) (.start later) (hx.mono (Nat.le_of_lt hlt)) rfl
    have hread := hmore.cons hone
    rw [hreceive]
    cases hp : Packet.ofMessage message with
    | ok p =>
      rw [hp] at hread
      exact hread
    | error fault =>
      -- a message that is no packet is taken off all the same, so the end reads on
      rw [hp] at hread
      show Reads limit _ (if later.length < (message ++ later).length then _ else _)
      rw [if_pos hlt]
      exact hread
  -- nothing is taken off, and a second look would find the same
  · have hread : Reads limit buffer
        ⟨[], walkFault? limit stop, { limit := limit, walk := last }, buffer⟩ :=
      ⟨⟨[], rfl, rfl, fun _ hm => absurd hm List.not_mem_nil⟩, rfl, hx, stop, hstop, rfl, hw⟩
    rw [receive_of_stop (e := ⟨{ limit := limit, walk := w }⟩) hresume hstop]
    cases hfault : walkFault? limit stop with
    | none =>
      rw [hfault] at hread
      exact hread
    | some fault =>
      rw [hfault] at hread
      show Reads limit _ (if buffer.length < buffer.length then _ else _)
      rw [if_neg (Nat.lt_irrefl _)]
      exact hread

/-- The walk in front of what is left is one that this can be found with. -/
theorem reached (h : Reads limit stream read) :
    Walk.Reached limit read.rest read.framer.walk := by
  obtain ⟨stop, -, -, hw⟩ := h.stops
  have hreached : Walk.Reached limit read.rest (Walk.start.resume limit read.rest).1 :=
    .resumed (.start read.rest)
  rwa [hw] at hreached

/-- **The messages of a piece are read behind those before.** -/
theorem goOn {piece : Bytes} (hx : Walk.Exact limit (read.rest ++ piece).length)
    (h : Reads limit stream read) : Reads limit (stream ++ piece) (goOn read piece) := by
  obtain ⟨messages, hstream, hitems, hall⟩ := h.messages
  obtain ⟨stop, hstop, hfault, hw⟩ := h.stops
  cases hstuck : read.fault with
  | some fault =>
    -- the walk has settled, and stops in the same place
    have hsettled : stop ≠ .incomplete := by
      rintro rfl
      cases hstuck.symm.trans hfault
    rw [goOn_of_stuck hstuck]
    refine ⟨⟨messages, ?_, hitems, hall⟩, h.keeps, hx, stop, hstop, hfault,
      Walk.scan_append_of_settled piece hw hsettled⟩
    rw [hstream, List.append_assoc]
  | none =>
    -- the end was waiting, so it reads on with the walk where that is
    have hlater : Reads limit (read.rest ++ piece)
        (readOn ⟨{ limit := limit, walk := read.framer.walk }⟩ (read.rest ++ piece)) :=
      of_readOn (.grown piece h.reached) hx
    have hframer : read.framer = { limit := limit, walk := read.framer.walk } := by
      rw [← h.keeps]
    rw [← hframer] at hlater
    obtain ⟨others, hrest, hmore, hothers⟩ := hlater.messages
    rw [goOn_of_waiting hstuck]
    refine ⟨⟨messages ++ others, ?_, ?_, ?_⟩, hlater.keeps, hlater.fits, hlater.stops⟩
    · rw [hstream, List.flatten_append, List.append_assoc, List.append_assoc]
      exact congrArg (messages.flatten ++ ·) hrest
    · rw [List.map_append, ← hitems, ← hmore]
    · exact fun m hm => (List.mem_append.1 hm).elim (hall m) (hothers m)

/-- At its end the end waits, or is stuck for good. -/
theorem ending (h : Reads limit stream read) :
    match read.fault with
    | none => receive ⟨read.framer⟩ read.rest = (.ok none, ⟨read.framer⟩, read.rest)
    | some fault => ∀ more, receive ⟨read.framer⟩ (read.rest ++ more) =
        (.error fault, ⟨read.framer⟩, read.rest ++ more) := by
  obtain ⟨stop, hstop, hfault, hw⟩ := h.stops
  have hlimit := h.keeps
  subst hlimit
  have hresume := h.reached.resume_eq h.fits
  rw [hfault]
  cases stop with
  | complete => exact absurd rfl hstop
  | incomplete =>
    have hwaits := hresume []
    rw [List.append_nil, hw] at hwaits
    exact receive_of_stop (e := ⟨read.framer⟩) hwaits hstop
  | reserved | tooLarge needed =>
    -- a walk that has settled stops there whatever arrives
    intro more
    have hsame := (hresume more).trans (Walk.scan_append_of_settled more hw (by simp))
    exact receive_of_stop (e := ⟨read.framer⟩) hsame hstop

end Reads

end ClientEnd

end Wire

end BoardLink
