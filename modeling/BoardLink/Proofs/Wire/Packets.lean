import BoardLink.Proofs.Wire.Requests

/-!
# Packets on the wire

A server appends its packets to the outgoing bytes, one behind the other. The client's end takes
them off what has arrived so far, each time that a piece arrives, and it takes what its framer takes
(`ClientEnd.drainPieces_eq_takePieces`).

The three kinds of packets share the numbers that lead them. So a packet is understood as what it is
exactly if its rcode says so (`Packet.WellFormed`), and no packet that is ill-formed comes back as
itself. What else a packet undergoes on the wire is `Packet.received`: strings that are no text come
back as byte blocks.

* `Packet.gets_of_wellFormed` — a client gets what is received of a well-formed packet;
* `ClientEnd.drainPieces_wellFormed` — packets survive the wire exactly when they are well-formed.
-/

namespace BoardLink.Wire

open BoardLink.MessagePack

/-! ### Well-formed packets -/

namespace Packet

/-- A packet whose rcode is one of its kind. -/
def WellFormed : Packet → Prop
  | .answer a => a.rcode ≤ 0
  | .event _ => True
  | .unknown rcode _ => 3 < rcode

/-- A packet with byte blocks for the strings that are no text. -/
def received : Packet → Packet
  | .answer a => .answer { a with payload := receivedAll a.payload }
  | .event e => .event e
  | .unknown rcode fields => .unknown rcode (receivedAll fields)

/-- **A packet is made of its rcode and its fields exactly if it is well-formed.** -/
theorem madeOf_iff_wellFormed (p : Packet) : p.MadeOf p.rcode p.fields ↔ p.WellFormed := by
  -- an answer is made of any fields, so what is left of being made is the sign of the rcode
  cases p with
  | answer a => exact ⟨fun h => h.1, fun h => ⟨h, rfl⟩⟩
  | event e => exact ⟨fun _ => trivial, fun _ => ⟨rfl, e.fieldsIn_fields⟩⟩
  | unknown rcode fields => exact ⟨fun h => h.1, fun h => ⟨h, rfl, rfl⟩⟩

theorem WellFormed.received {p : Packet} (h : p.WellFormed) : p.received.WellFormed := by
  cases p with
  | answer | event | unknown => exact h

/-- What is received of the value of a packet is the value of what is received of it. -/
theorem received_toValue (p : Packet) : p.toValue.received = p.received.toValue := by
  cases p with
  | answer | unknown => rfl
  | event e =>
    -- an event has no strings but those that are text
    cases e with
    | added | removed | changed => rfl

/-- **A client gets what is received of a well-formed packet**, if the packet gets through. -/
theorem gets_of_wellFormed {limit : Nat} {p : Packet} (h : p.WellFormed)
    (hpasses : p.toValue.Passes limit) (hdepth : p.toValue.received.cost ≤ readBudget) :
    readPackets.Gets limit p.toValue p.received where
  passes := hpasses
  depth := hdepth
  understood := by
    rw [received_toValue]
    exact ofValue_toValue_iff.2 (p.received.madeOf_iff_wellFormed.2 h.received)

/-- A short packet gets through, and is got as it is if it has no strings but those that are text. -/
theorem gets_of_length {limit : Nat} {p : Packet} (h : p.WellFormed) (hsame : p.received = p)
    (hlength : p.encode.length ≤ limit) (hshort : p.encode.length < 0x100000000)
    (hdepth : p.toValue.received.cost ≤ readBudget) : readPackets.Gets limit p.toValue p := by
  have hgets := gets_of_wellFormed h ⟨p.toValue.sized_of_length hshort, hlength⟩ hdepth
  rwa [hsame] at hgets

end Packet

/-! ### The client's end -/

theorem ClientEnd.receive_eq_iff {e : ClientEnd} {buffer rest : Bytes} {framer : Framer}
    {result : Except Fault (Option Packet)} : e.receive buffer = (result, ⟨framer⟩, rest) ↔
      -- the framer is all that the client's end holds
      e.framer.nextAs readPackets buffer = (result, framer, rest) := by
  have hreceive : e.receive buffer = ((e.framer.nextAs readPackets buffer).1,
      ⟨(e.framer.nextAs readPackets buffer).2.1⟩, (e.framer.nextAs readPackets buffer).2.2) := by
    rw [receive, receiveWith_eq_nextAs]
    rfl
  rw [hreceive]
  simp only [Prod.ext_iff, ClientEnd.mk.injEq]

theorem ClientEnd.length_receive_lt {e : ClientEnd} {buffer rest : Bytes} {framer : Framer}
    {p : Packet} (h : e.receive buffer = (.ok (some p), ⟨framer⟩, rest)) :
    rest.length < buffer.length :=
  Framer.length_nextAs_lt (receive_eq_iff.1 h)

/-- Takes packets until no complete one is left or a fault arises. -/
def ClientEnd.drain (e : ClientEnd) (buffer : Bytes) : Framer.Taken Fault Packet :=
  match h : e.receive buffer with
  | (.ok none, ⟨framer⟩, rest) => ⟨[], none, framer, rest⟩
  | (.error fault, ⟨framer⟩, rest) => ⟨[], some fault, framer, rest⟩
  | (.ok (some p), ⟨framer⟩, rest) =>
    have := length_receive_lt h
    let more := drain ⟨framer⟩ rest
    { more with items := p :: more.items }
termination_by buffer.length

/-- **The client's end yields what its framer yields.** -/
theorem ClientEnd.drain_eq_takeAll (e : ClientEnd) (buffer : Bytes) :
    e.drain buffer = e.framer.takeAll readPackets buffer := by
  fun_induction ClientEnd.drain e buffer with
  | case1 e buffer framer rest hnext | case2 e buffer fault framer rest hnext =>
    -- nothing more is there, or a fault: both stop and keep what is left
    rw [Framer.takeAll_eq, receive_eq_iff.1 hnext]
  | case3 e buffer p framer rest hnext hlt more ih =>
    -- a packet is taken off, and the same of the rest is the induction hypothesis
    rw [Framer.takeAll_eq, receive_eq_iff.1 hnext]
    simp only [more, ih]

/-- Goes on taking packets when a piece arrives, unless there was a fault. -/
def ClientEnd.extend (t : Framer.Taken Fault Packet) (piece : Bytes) : Framer.Taken Fault Packet :=
  match t.fault with
  | some _ => { t with rest := t.rest ++ piece }
  | none =>
    let later := (ClientEnd.mk t.framer).drain (t.rest ++ piece)
    { later with items := t.items ++ later.items }

/-- Takes the packets after each piece of what arrives. -/
def ClientEnd.drainPieces (e : ClientEnd) (pieces : List Bytes) : Framer.Taken Fault Packet :=
  pieces.foldl extend ⟨[], none, e.framer, []⟩

/-- **In any fragmentation the client's end yields what its framer yields.** -/
theorem ClientEnd.drainPieces_eq_takePieces (e : ClientEnd) (pieces : List Bytes) :
    e.drainPieces pieces = Framer.takePieces readPackets e.framer pieces := by
  -- one step of the client's end is one of its framer, so the folds are the same
  have hextend : extend = Framer.Taken.extend readPackets := by
    funext t piece
    unfold extend Framer.Taken.extend
    rw [drain_eq_takeAll]
    cases t.fault <;> rfl
  rw [drainPieces, hextend]
  rfl

/-! ### From the server to the client -/

/-- A server sends its packets one behind the other. -/
theorem foldl_sendPacket (server : ServerEnd) (packets : List Packet) (out : Bytes) :
    packets.foldl (fun out p => server.send p out) out =
      out ++ Framer.encodeSent Packet.toValue packets := by
  induction packets generalizing out with
  | nil => exact (List.append_nil out).symm
  | cons p packets ih =>
    rw [List.foldl_cons, ih, ServerEnd.send, List.append_assoc]
    rfl

/-- **Packets survive the wire exactly when they are well-formed.** A packet is read back from the
value that it is written as if its rcode is one of its kind, and only then. And a server has sent
any well-formed packets whose lengths can be written, whose messages are within the limit of the
client and which are not nested deeper than it reads. Whatever the pieces are in which the bytes
arrive, the client gets these packets, in their order and without a fault, with byte blocks in place
of the strings that are no text; no bytes are left, and the client's end is as it was before. -/
theorem ClientEnd.drainPieces_wellFormed {limit : Nat} {packets : List Packet}
    {pieces : List Bytes} (server : ServerEnd) (hlimit : limit ≤ maxSize)
    (hformed : ∀ p ∈ packets, p.WellFormed) (hpasses : ∀ p ∈ packets, p.toValue.Passes limit)
    (hdepth : ∀ p ∈ packets, p.toValue.received.cost ≤ readBudget)
    (hpieces : pieces.flatten = packets.foldl (fun out p => server.send p out) []) :
    (∀ p : Packet, Packet.ofValue p.toValue = .ok p ↔ p.WellFormed) ∧
      drainPieces ⟨{ limit := limit }⟩ pieces =
        ⟨packets.map Packet.received, none, { limit := limit }, []⟩ := by
  refine ⟨fun p => Packet.ofValue_toValue_iff.trans p.madeOf_iff_wellFormed, ?_⟩
  -- what arrives of a packet is what was received of its value, and that is read
  have hgets : ∀ p ∈ packets, readPackets.Gets limit p.toValue p.received :=
    fun p hp => Packet.gets_of_wellFormed (hformed p hp) (hpasses p hp) (hdepth p hp)
  rw [foldl_sendPacket, List.nil_append] at hpieces
  rw [drainPieces_eq_takePieces, Framer.takePieces_encodeSent_whole hlimit hgets hpieces]

/-- An answer with a string that is no text, an event, and a packet of an rcode that the protocol
does not know, cut inside of the string and inside of the event. -/
theorem ClientEnd.drainPieces_wellFormed_badStr :
    let packets : List Packet :=
      [.answer ⟨-2, [.badStr [0xff]]⟩, .event (.added "FAOUT-01"), .unknown 9 [.nil]]
    let sent := packets.foldl (fun out p => ServerEnd.send {} p out) []
    let pieces := [sent.take 3, [], (sent.drop 3).take 5, sent.drop 8]
    (∀ p ∈ packets, p.WellFormed) ∧ (∀ p ∈ packets, p.toValue.Passes 64) ∧
      (∀ p ∈ packets, p.toValue.received.cost ≤ readBudget) ∧ pieces.flatten = sent ∧
      drainPieces ⟨{ limit := 64 }⟩ pieces =
        ⟨[.answer ⟨-2, [.bin [0xff]]⟩, .event (.added "FAOUT-01"), .unknown 9 [.nil]], none,
          { limit := 64 }, []⟩ := by
  intro packets sent pieces
  have hformed : ∀ p ∈ packets, p.WellFormed := by
    simp only [packets, List.forall_mem_cons, Packet.WellFormed]
    exact ⟨by decide, trivial, by decide, fun _ hp => by cases hp⟩
  have hpasses : ∀ p ∈ packets, p.toValue.Passes 64 := by
    intro p hp
    have hlength : p.toValue.encode.length ≤ 64 := by
      -- none of the encodings is longer than the limit
      revert p
      decide
    exact ⟨p.toValue.sized_of_length (by omega), hlength⟩
  have hdepth : ∀ p ∈ packets, p.toValue.received.cost ≤ readBudget := by decide
  have hpieces : pieces.flatten = sent := by decide
  exact ⟨hformed, hpasses, hdepth, hpieces,
    (drainPieces_wellFormed {} (by decide) hformed hpasses hdepth hpieces).2⟩

end BoardLink.Wire
