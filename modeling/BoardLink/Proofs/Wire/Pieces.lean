import BoardLink.Proofs.MessagePack.RoundTrip
import BoardLink.Wire.Inbox

/-!
# Packets that arrive in pieces

An inbox is a framer that reads packets and remembers the first fault. What it yields is therefore
what `Framer.takeAll` yields (`Inbox.drain_eq_takeAll`), and how the stream was cut into pieces is
lost on it: the packets, the first fault and the inbox that is left are those of the whole stream
(`Inbox.drainPieces_eq_drain`). Behind the first fault an inbox only keeps what arrives. To drain an
inbox is to make one pass over its packets (`Packets.yields_drain`).
-/

namespace BoardLink.Wire

open BoardLink.MessagePack

/-- Values as packets. -/
def readPackets : Reading Fault Packet := ⟨Packet.ofValue, .ofFrame⟩

namespace Inbox

theorem feed_nil (i : Inbox) : i.feed [] = i := by
  unfold feed
  rw [List.append_nil]

theorem feed_feed (i : Inbox) (data more : Bytes) :
    (i.feed data).feed more = i.feed (data ++ more) := by
  unfold feed
  rw [List.append_assoc]

/-- The inbox that is left when its packets have been taken. -/
def ofTaken (t : Framer.Taken Fault Packet) : Inbox := ⟨t.rest, t.framer, t.fault⟩

/-- The next packet of an inbox that has not failed is the next message of its framer. -/
theorem next_eq_nextAs {i : Inbox} (hi : i.failure = none) : i.next =
    match i.framer.nextAs readPackets i.buffer with
    | (.ok packet, framer, buffer) => (.ok packet, { buffer, framer })
    | (.error fault, framer, buffer) =>
      (.error fault, { buffer, framer, failure := some fault }) := by
  rw [next, hi, Framer.nextAs]
  -- the framer gives no message, or one that is a packet or none
  rcases i.framer.next i.buffer with ⟨why | _ | v, framer, buffer⟩
  · rfl
  · rfl
  · simp only [readPacket, readPackets]
    cases Packet.ofValue v <;> rfl

/-- **An inbox that has not failed yields what its framer yields.** -/
theorem drain_eq_takeAll {i : Inbox} (hi : i.failure = none) :
    i.drain = (⟨(i.framer.takeAll readPackets i.buffer).items,
      (i.framer.takeAll readPackets i.buffer).fault⟩,
      ofTaken (i.framer.takeAll readPackets i.buffer)) := by
  induction hn : i.buffer.length using Nat.strongRecOn generalizing i with
  | _ n ih =>
  rw [drain_eq, next_eq_nextAs hi, Framer.takeAll_eq]
  match hnext : i.framer.nextAs readPackets i.buffer with
  | (.ok none, framer, buffer) => rfl
  | (.error fault, framer, buffer) => rfl
  | (.ok (some p), framer, buffer) =>
    -- the inbox has not failed, so the induction applies to what is left of it
    have hlt := Framer.length_nextAs_lt hnext
    simp only
    rw [ih buffer.length (by omega) rfl rfl]
    rfl

theorem next_of_failed {i : Inbox} {first : Fault} (hi : i.failure = some first) :
    i.next = (.error (.invalidFormat (.failedEarlier first.message)), i) := by
  rw [next, hi]

theorem drain_of_failed {i : Inbox} {first : Fault} (hi : i.failure = some first) :
    i.drain = (⟨[], some (.invalidFormat (.failedEarlier first.message))⟩, i) := by
  rw [drain_eq, next_of_failed hi]

theorem failure_drain {i : Inbox} (hi : i.failure = none) :
    i.drain.2.failure = i.drain.1.fault := by
  rw [drain_eq_takeAll hi]
  rfl

theorem failure_of_drain {i : Inbox} (h : i.drain.1.fault = none) : i.failure = none := by
  -- an inbox that has not failed keeps the fault of its framer
  cases hi : i.failure with
  | none => rfl
  | some first =>
    rw [drain_of_failed hi] at h
    cases h

theorem limit_drain (i : Inbox) : i.drain.2.framer.limit = i.framer.limit := by
  cases hi : i.failure with
  | none =>
    rw [drain_eq_takeAll hi]
    exact Framer.limit_takeAll readPackets i.framer i.buffer
  -- a failed inbox is left as it is
  | some first => rw [drain_of_failed hi]

/-- A stream behind which, wherever it is cut, no more bytes are left buffered than can be
counted. -/
def Fits (i : Inbox) (stream : Bytes) : Prop :=
  ∀ front, front <+: stream → Walk.Exact i.framer.limit (i.feed front).drain.2.buffered

theorem Fits.of_append {i : Inbox} {front more : Bytes} (h : i.Fits (front ++ more)) :
    i.Fits front :=
  fun _ hpart => h _ (hpart.trans (List.prefix_append front more))

/-- **Draining is not disturbed by where a piece ends.** What arrives later is decoded by the inbox
that was left as it would have been decoded together with what arrived before. -/
theorem drain_feed {i : Inbox} (more : Bytes) (hok : i.drain.1.fault = none)
    (hx : Walk.Exact i.framer.limit i.drain.2.buffered) :
    (i.feed more).drain =
      (⟨i.drain.1.packets ++ (i.drain.2.feed more).drain.1.packets,
        (i.drain.2.feed more).drain.1.fault⟩, (i.drain.2.feed more).drain.2) := by
  -- without a fault the inbox had not failed before
  have hi := failure_of_drain hok
  have hfed : (i.feed more).failure = none := hi
  rw [drain_eq_takeAll hi] at hok hx ⊢
  rw [drain_eq_takeAll hfed]
  have hextend : (i.feed more).framer.takeAll readPackets (i.feed more).buffer =
      (i.framer.takeAll readPackets i.buffer).extend readPackets more :=
    Framer.takeAll_append more hx
  rw [hextend]
  -- without a fault, to go on taking is to drain what is left with what has come
  generalize i.framer.takeAll readPackets i.buffer = t at hok
  have hfault : t.fault = none := hok
  have hleft : ((ofTaken t).feed more).failure = none := hok
  rw [drain_eq_takeAll hleft, Framer.Taken.extend, hfault]
  rfl

/-- Behind a fault nothing is decoded. What arrives later is kept, and changes neither the packets
in front of the fault nor the fault. -/
theorem drain_feed_of_fault {i : Inbox} (more : Bytes) (hfault : i.drain.1.fault ≠ none)
    (hx : Walk.Exact i.framer.limit i.drain.2.buffered) :
    (i.feed more).drain = (i.drain.1, i.drain.2.feed more) := by
  -- an inbox that had failed says so again, and keeps what comes
  cases hi : i.failure with
  | some first =>
    have hfed : (i.feed more).failure = some first := hi
    rw [drain_of_failed hi, drain_of_failed hfed]
  | none =>
    have hfed : (i.feed more).failure = none := hi
    rw [drain_eq_takeAll hi] at hfault hx ⊢
    have hextend : (i.feed more).framer.takeAll readPackets (i.feed more).buffer =
        (i.framer.takeAll readPackets i.buffer).extend readPackets more :=
      Framer.takeAll_append more hx
    rw [drain_eq_takeAll hfed, hextend]
    -- the framer stays behind its fault, and the inbox keeps both
    generalize i.framer.takeAll readPackets i.buffer = t at hfault
    obtain ⟨first, hfirst⟩ := Option.ne_none_iff_exists'.1 hfault
    have ht : t.fault = some first := hfirst
    rw [Framer.Taken.extend, ht]
    simp only [ofTaken, ht]
    rfl

/-- Draining takes bytes off the buffer, and adds none. -/
theorem buffered_drain_le (i : Inbox) : i.drain.2.buffered ≤ i.buffered := by
  cases hi : i.failure with
  | some first => exact Nat.le_of_eq (by rw [drain_of_failed hi])
  | none =>
    rw [drain_eq_takeAll hi]
    exact Framer.length_takeAll_le readPackets i.framer i.buffer

/-- An inbox that yields no packet before more has arrived. -/
def Settled (i : Inbox) : Prop := i.drain.1.packets = []

/-- Draining leaves a settled inbox, unless there was a fault. -/
theorem settled_drain {i : Inbox} (hok : i.drain.1.fault = none)
    (hx : Walk.Exact i.framer.limit i.drain.2.buffered) : i.drain.2.Settled := by
  -- to drain again what is left is to go on with nothing, so it adds no packet
  have hdrain := congrArg (fun d => d.1.packets) (drain_feed [] hok hx)
  simp only [feed_nil] at hdrain
  exact List.append_right_eq_self.1 hdrain.symm

/-- A message at the front of a stream is taken for the packet that it is, or for the fault. -/
theorem next_encode {limit : Nat} {v : Value} (hpasses : v.Passes limit) (hlimit : limit ≤ maxSize)
    (hdepth : v.received.cost ≤ readBudget) (rest : Bytes) :
    ((withLimit limit).feed (v.encode ++ rest)).next =
      match Packet.ofValue v.received with
      | .ok p => (.ok (some p), (withLimit limit).feed rest)
      | .error fault =>
        (.error fault, { (withLimit limit).feed rest with failure := some fault }) := by
  -- the message is cut off in front, and then it is read alone
  have hcut : ((withLimit limit).feed (v.encode ++ rest)).framer.next
      ((withLimit limit).feed (v.encode ++ rest)).buffer =
        (.ok (some v.received), { limit := limit }, rest) :=
    Framer.next_encode hpasses hlimit hdepth rest
  unfold next
  simp only [hcut, readPacket]
  cases Packet.ofValue v.received <;> rfl

theorem next_of_gets {limit : Nat} {v : Value} {p : Packet} (h : readPackets.Gets limit v p)
    (hlimit : limit ≤ maxSize) (rest : Bytes) :
    ((withLimit limit).feed (v.encode ++ rest)).next =
      (.ok (some p), (withLimit limit).feed rest) := by
  have hread : Packet.ofValue v.received = .ok p := h.understood
  rw [next_encode h.passes hlimit h.depth, hread]

/-- A packet that was sent comes in front of what else an inbox yields. -/
theorem drain_of_gets {limit : Nat} {v : Value} {p : Packet} (h : readPackets.Gets limit v p)
    (hlimit : limit ≤ maxSize) (rest : Bytes) :
    let later := ((withLimit limit).feed rest).drain
    ((withLimit limit).feed (v.encode ++ rest)).drain =
      ({ later.1 with packets := p :: later.1.packets }, later.2) := by
  intro later
  rw [drain_eq, next_of_gets h hlimit]

/-- **An inbox yields the packets that were sent**, and is left as it was before. -/
theorem drain_encodePackets {limit : Nat} {packets : List Packet} (hlimit : limit ≤ maxSize)
    (hpackets : ∀ p ∈ packets, readPackets.Gets limit p.toValue p) :
    ((withLimit limit).feed (encodePackets packets)).drain =
      (⟨packets, none⟩, withLimit limit) := by
  have hfresh : ((withLimit limit).feed (encodePackets packets)).failure = none := rfl
  -- behind the last packet nothing is left to wait for
  have hwait : Framer.next { limit := limit } [] = (.ok none, { limit := limit }, []) := rfl
  have htaken := Framer.takeAll_encodeSent hlimit hpackets hwait
  rw [List.append_nil, List.map_id'] at htaken
  have hall : ((withLimit limit).feed (encodePackets packets)).framer.takeAll readPackets
      ((withLimit limit).feed (encodePackets packets)).buffer =
        ⟨packets, none, { limit := limit }, []⟩ := htaken
  rw [drain_eq_takeAll hfresh, hall]
  rfl

/-- Drains the inbox after each piece of what arrives. -/
def drainPieces (i : Inbox) : (pieces : List Bytes) → List Drained × Inbox
  | [] => ([], i)
  | piece :: pieces =>
    let (drained, after) := (i.feed piece).drain
    let (later, last) := drainPieces after pieces
    (drained :: later, last)

/-- Behind a fault nothing is yielded but the news that the stream has failed. -/
theorem drainPieces_of_failed {i : Inbox} {first : Fault} (hi : i.failure = some first)
    (pieces : List Bytes) : ∀ d ∈ (i.drainPieces pieces).1, d.packets = [] ∧ d.fault.isSome := by
  -- a failed inbox fails at each piece, and is left failed
  induction pieces generalizing i with
  | nil =>
    intro d hd
    simp [drainPieces] at hd
  | cons piece pieces ih =>
    have hfed : (i.feed piece).failure = some first := hi
    rw [drainPieces, drain_of_failed hfed]
    intro d hd
    rcases List.mem_cons.1 hd with rfl | hd
    · exact ⟨rfl, rfl⟩
    · exact ih hfed d hd

private theorem findSome?_cons_or {α β : Type} (f : α → Option β) (a : α) (l : List α) :
    (a :: l).findSome? f = (f a).or (l.findSome? f) := by
  rw [List.findSome?_cons]
  cases f a <;> rfl

/-- **Draining after each piece takes what the framer takes.** The induction is on the pieces, over
everything that the framer may have taken before: while there was no fault the inbox is drained, and
behind one both only keep the bytes. -/
theorem drainPieces_ofTaken (t : Framer.Taken Fault Packet) (pieces : List Bytes) :
    t.items ++ ((ofTaken t).drainPieces pieces).1.flatMap (·.packets) =
        (pieces.foldl (Framer.Taken.extend readPackets) t).items ∧
      t.fault.or (((ofTaken t).drainPieces pieces).1.findSome? (·.fault)) =
        (pieces.foldl (Framer.Taken.extend readPackets) t).fault ∧
      ((ofTaken t).drainPieces pieces).2 =
        ofTaken (pieces.foldl (Framer.Taken.extend readPackets) t) := by
  induction pieces generalizing t with
  | nil => exact ⟨by simp [drainPieces], by simp [drainPieces], rfl⟩
  | cons piece pieces ih =>
    rw [List.foldl_cons]
    obtain ⟨hitems, hfault, hlast⟩ := ih (t.extend readPackets piece)
    cases ht : t.fault with
    | none =>
      -- no fault yet: the inbox drains the piece as the framer takes it
      have hopen : ((ofTaken t).feed piece).failure = none := ht
      have hextend : t.extend readPackets piece =
          { t.framer.takeAll readPackets (t.rest ++ piece) with
            items := t.items ++ (t.framer.takeAll readPackets (t.rest ++ piece)).items } := by
        simp [Framer.Taken.extend, ht]
      rw [drainPieces, drain_eq_takeAll hopen]
      rw [hextend] at hitems hfault hlast ⊢
      refine ⟨?_, ?_, hlast⟩
      · rw [List.flatMap_cons, ← List.append_assoc]
        exact hitems
      · -- the first fault is that of this drain, or the first one of a later drain
        rw [← hfault, findSome?_cons_or, Option.none_or]
        rfl
    | some first =>
      -- a fault before: neither yields anything more
      have hfailed : ((ofTaken t).feed piece).failure = some first := ht
      have hextend : t.extend readPackets piece = { t with rest := t.rest ++ piece } := by
        simp [Framer.Taken.extend, ht]
      rw [drainPieces, drain_of_failed hfailed]
      rw [hextend] at hitems hfault hlast ⊢
      refine ⟨hitems, ?_, hlast⟩
      rw [← hfault, ht]
      rfl

theorem isSome_failure_drain {i : Inbox} (h : i.drain.1.fault.isSome) :
    i.drain.2.failure.isSome := by
  cases hi : i.failure with
  | none =>
    rw [failure_drain hi]
    exact h
  | some first =>
    rw [drain_of_failed hi]
    simp [hi]

/-- Once a fault has come up, no packet is yielded again. -/
theorem drainPieces_silent {i : Inbox} {pieces : List Bytes} {before after : List Drained}
    {d : Drained} (h : (i.drainPieces pieces).1 = before ++ d :: after) (hd : d.fault.isSome) :
    ∀ later ∈ after, later.packets = [] ∧ later.fault.isSome := by
  induction pieces generalizing i before with
  | nil => simp [drainPieces] at h
  | cons piece pieces ih =>
    simp only [drainPieces] at h
    cases before with
    | nil =>
      obtain ⟨rfl, rfl⟩ := List.cons.inj h
      -- the fault came up here, so the inbox has failed from here on
      obtain ⟨first, hfirst⟩ := Option.isSome_iff_exists.1 (isSome_failure_drain hd)
      exact drainPieces_of_failed hfirst pieces
    | cons b before => exact ih (List.cons.inj h).2

/-- **The pieces of a stream do not show in what is decoded.** An inbox that is drained after each
piece yields the packets that it yields when the whole stream arrives at once, and the same first
fault; it yields no packet behind that fault; and it is left in the same state, so as many bytes are
buffered and it has failed or not.

The stream is one that fits into a memory, or the limit is one that can be exceeded. -/
theorem drainPieces_eq_drain {limit : Nat} {pieces : List Bytes}
    (hx : Walk.Exact limit pieces.flatten.length) :
    ((withLimit limit).drainPieces pieces).1.flatMap (·.packets) =
        ((withLimit limit).feed pieces.flatten).drain.1.packets ∧
      ((withLimit limit).drainPieces pieces).1.findSome? (·.fault) =
        ((withLimit limit).feed pieces.flatten).drain.1.fault ∧
      (∀ before d after, ((withLimit limit).drainPieces pieces).1 = before ++ d :: after →
        d.fault.isSome → ∀ later ∈ after, later.packets = [] ∧ later.fault.isSome) ∧
      ((withLimit limit).drainPieces pieces).2 =
        ((withLimit limit).feed pieces.flatten).drain.2 := by
  have hfresh : ((withLimit limit).feed pieces.flatten).failure = none := rfl
  have htaken : pieces.foldl (Framer.Taken.extend readPackets) ⟨[], none, { limit := limit }, []⟩ =
      Framer.takeAll readPackets { limit := limit } pieces.flatten :=
    Framer.takePieces_eq_takeAll (.of_exact hx)
  obtain ⟨hitems, hfault, hlast⟩ :=
    drainPieces_ofTaken ⟨[], none, { limit := limit }, []⟩ pieces
  rw [htaken] at hitems hfault hlast
  rw [drain_eq_takeAll hfresh]
  refine ⟨hitems, ?_, ?_, hlast⟩
  -- the framer had no fault before the first piece
  · rw [Option.none_or] at hfault
    exact hfault
  · intro before d after hcut hd
    exact drainPieces_silent hcut hd

/-- A stream with a packet and then a marker that begins no value, cut inside of the packet. -/
theorem drainPieces_eq_drain_reserved :
    Walk.Exact 64 ([[0x91], [], [0x05, 0xc1], [0x91]] : List Bytes).flatten.length ∧
      ((withLimit 64).drainPieces [[0x91], [], [0x05, 0xc1], [0x91]]).1.flatMap (·.packets) =
        ((withLimit 64).feed [0x91, 0x05, 0xc1, 0x91]).drain.1.packets ∧
      ((withLimit 64).drainPieces [[0x91], [], [0x05, 0xc1], [0x91]]).1.findSome? (·.fault) =
        ((withLimit 64).feed [0x91, 0x05, 0xc1, 0x91]).drain.1.fault ∧
      ((withLimit 64).drainPieces [[0x91], [], [0x05, 0xc1], [0x91]]).2 =
        ((withLimit 64).feed [0x91, 0x05, 0xc1, 0x91]).drain.2 := by
  have hx : Walk.Exact 64 ([[0x91], [], [0x05, 0xc1], [0x91]] : List Bytes).flatten.length :=
    .inl (by decide)
  obtain ⟨hpackets, hfault, -, hlast⟩ := drainPieces_eq_drain hx
  exact ⟨hx, hpackets, hfault, hlast⟩

end Inbox

/-- What a pass over the packets of an inbox yields until it ends, and the inbox that it leaves. -/
inductive Packets.Yields : Packets → List (Except Fault Packet) → Inbox → Prop
  | ended {p : Packets} {last : Inbox} {done : Bool} (h : p.next = (none, ⟨last, done⟩)) :
    Yields p [] last
  | item {p p' : Packets} {x : Except Fault Packet} {xs : List (Except Fault Packet)} {last : Inbox}
      (h : p.next = (some x, p')) (others : Yields p' xs last) : Yields p (x :: xs) last

/-- **Draining is one pass.** A pass yields the packets of a drained inbox and then its fault, if
there is one. -/
theorem Packets.yields_drain (i : Inbox) :
    Yields ⟨i, false⟩ (i.drain.1.packets.map .ok ++ i.drain.1.fault.toList.map .error)
      i.drain.2 := by
  induction hn : i.buffer.length using Nat.strongRecOn generalizing i with
  | _ n ih =>
  rw [Inbox.drain_eq]
  match hnext : i.next with
  | (.ok none, i') =>
    have hnone : Packets.next ⟨i, false⟩ = (none, ⟨i', true⟩) := by simp [Packets.next, hnext]
    exact .ended hnone
  | (.error fault, i') =>
    -- the pass ends behind the fault, whatever the inbox would yield next
    have hfault : Packets.next ⟨i, false⟩ = (some (.error fault), ⟨i', true⟩) := by
      simp [Packets.next, hnext]
    have hended : Packets.next ⟨i', true⟩ = (none, ⟨i', true⟩) := rfl
    exact .item hfault (.ended hended)
  | (.ok (some packet), i') =>
    -- the packet shortens the buffer, so the rest of the pass is by induction
    have hpacket : Packets.next ⟨i, false⟩ = (some (.ok packet), ⟨i', false⟩) := by
      simp [Packets.next, hnext]
    have hlt := Inbox.length_next_lt hnext
    exact .item hpacket (ih i'.buffer.length (by omega) i' rfl)

end BoardLink.Wire
