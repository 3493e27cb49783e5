import BoardLink.Wire.Packet

/-!
# The stream of packets from a server

An `Inbox` turns bytes that arrive in pieces into packets. Bytes are appended with `feed`; complete
packets are taken with `next`, one at a time, or with `drain`, all at once. What is left of an
incomplete packet stays buffered. The first fault fails the inbox for good, because from then on
nobody knows where the next message begins.

* `Inbox.length_next_lt` — a packet that is handed out was taken off the buffer;
* `Inbox.drain_eq` — draining is taking packets until there is none or a fault.
-/

namespace BoardLink.Wire

open BoardLink.MessagePack

/-- Bytes received and not yet decoded, and the fault that ended the stream, if one did. -/
structure Inbox where
  buffer : Bytes := []
  framer : Framer := {}
  failure : Option Fault := none

namespace Inbox

/-- An empty inbox with a size limit for messages. -/
def withLimit (limit : Nat) : Inbox := { framer := { limit := limit } }

/-- Appends received bytes. -/
def feed (i : Inbox) (data : Bytes) : Inbox :=
  { i with buffer := i.buffer ++ data }

/-- Whether a fault has ended the stream. -/
def isFailed (i : Inbox) : Bool := i.failure.isSome

/-- The number of bytes that were not decoded yet. -/
def buffered (i : Inbox) : Nat := i.buffer.length

/-- Reads a value that was cut off the stream. -/
def readPacket (cut : Except FrameFault (Option Value)) : Except Fault (Option Packet) :=
  match cut with
  | .error why => .error (.ofFrame why)
  | .ok none => .ok none
  | .ok (some v) => some <$> Packet.ofValue v

/-- Takes the next packet, `none` if no complete one is buffered. -/
def next (i : Inbox) : Except Fault (Option Packet) × Inbox :=
  match i.failure with
  | some first => (.error (.invalidFormat (.failedEarlier first.message)), i)
  | none =>
    let (cut, framer, buffer) := i.framer.next i.buffer
    match readPacket cut with
    | .ok packet => (.ok packet, { buffer, framer })
    | .error fault => (.error fault, { buffer, framer, failure := some fault })

/-- Nothing but a value that was cut off gives a packet. -/
theorem readPacket_eq_some {cut : Except FrameFault (Option Value)} {p : Packet}
    (h : readPacket cut = .ok (some p)) : ∃ v, cut = .ok (some v) ∧ Packet.ofValue v = .ok p := by
  match cut with
  | .error _ => simp [readPacket] at h
  | .ok none => simp [readPacket] at h
  | .ok (some v) =>
    refine ⟨v, rfl, ?_⟩
    simp only [readPacket] at h
    cases hv : Packet.ofValue v with
    | error e => simp [hv, Functor.map, Except.map] at h
    | ok q => simpa [hv, Functor.map, Except.map] using h

/-- A packet that is handed out was taken off the buffer. -/
theorem length_next_lt {i i' : Inbox} {p : Packet} (h : i.next = (.ok (some p), i')) :
    i'.buffer.length < i.buffer.length := by
  unfold next at h
  split at h
  · simp at h
  · generalize hcut : i.framer.next i.buffer = cut at h
    obtain ⟨result, framer, buffer⟩ := cut
    simp only at h
    split at h
    next packet hread =>
      simp only [Prod.mk.injEq, Except.ok.injEq] at h
      obtain ⟨rfl, rfl⟩ := h
      obtain ⟨v, rfl, -⟩ := readPacket_eq_some hread
      exact Framer.length_next_lt hcut
    · simp at h

/-- What draining an inbox yields: the packets in their order, and the fault behind them, if any. -/
structure Drained where
  packets : List Packet
  fault : Option Fault

/-- Takes packets until no complete one is left or a fault arises. -/
def drain (i : Inbox) : Drained × Inbox :=
  match h : i.next with
  | (.ok none, i') => (⟨[], none⟩, i')
  | (.error fault, i') => (⟨[], some fault⟩, i')
  | (.ok (some p), i') =>
    have := length_next_lt h
    let (d, last) := drain i'
    (⟨p :: d.packets, d.fault⟩, last)
termination_by i.buffer.length

/-- Draining is taking packets until there is none or a fault. -/
theorem drain_eq (i : Inbox) : i.drain =
    match i.next with
    | (.ok none, i') => (⟨[], none⟩, i')
    | (.error fault, i') => (⟨[], some fault⟩, i')
    | (.ok (some p), i') => (⟨p :: i'.drain.1.packets, i'.drain.1.fault⟩, i'.drain.2) := by
  rw [drain]
  split <;> rename_i h <;> simp [h]

end Inbox

/-- A pass over the packets of an inbox, which ends at the first missing packet or fault. -/
structure Packets where
  inbox : Inbox
  done : Bool := false

/-- The next item of a pass, `none` once it has ended. -/
def Packets.next (p : Packets) : Option (Except Fault Packet) × Packets :=
  if p.done then (none, p)
  else match p.inbox.next with
    | (.ok none, i) => (none, ⟨i, true⟩)
    | (.ok (some packet), i) => (some (.ok packet), ⟨i, false⟩)
    | (.error fault, i) => (some (.error fault), ⟨i, true⟩)

end BoardLink.Wire
