import BoardLink.Wire.Packet
import BoardLink.Wire.Request

/-!
# The two ends of a connection

The client's end takes packets off its incoming bytes and appends requests to its outgoing ones; the
server's end does the opposite. Both cut messages off with a framer. Unlike an inbox, an end reads
on behind a message that could be cut off but not understood.
-/

namespace BoardLink.Wire

open BoardLink.MessagePack

/-- Takes one message off the front of a buffer and understands it with `read`. -/
def receiveWith {α : Type} (read : Value → Except Fault α) (f : Framer) (buffer : Bytes) :
    Except Fault (Option α) × Framer × Bytes :=
  match f.next buffer with
  | (.error why, f', rest) => (.error (.ofFrame why), f', rest)
  | (.ok none, f', rest) => (.ok none, f', rest)
  | (.ok (some v), f', rest) => (some <$> read v, f', rest)

/-- The client's end. -/
structure ClientEnd where
  framer : Framer := {}

/-- Takes one packet off the incoming bytes. -/
def ClientEnd.receive (e : ClientEnd) (buffer : Bytes) :
    Except Fault (Option Packet) × ClientEnd × Bytes :=
  let (result, framer, rest) := receiveWith Packet.ofValue e.framer buffer
  (result, ⟨framer⟩, rest)

/-- Appends a request to the outgoing bytes. -/
def ClientEnd.send (_ : ClientEnd) (r : Request) (out : Bytes) : Bytes := out ++ r.encode

/-- The server's end. -/
structure ServerEnd where
  framer : Framer := {}

/-- Takes one request off the incoming bytes. -/
def ServerEnd.receive (e : ServerEnd) (buffer : Bytes) :
    Except Fault (Option Request) × ServerEnd × Bytes :=
  let (result, framer, rest) := receiveWith Request.ofValue e.framer buffer
  (result, ⟨framer⟩, rest)

/-- Appends a packet to the outgoing bytes. -/
def ServerEnd.send (_ : ServerEnd) (p : Packet) (out : Bytes) : Bytes := out ++ p.encode

/-- A value that is handed out was taken off the buffer. -/
theorem length_receiveWith_lt {α : Type} {read : Value → Except Fault α} {f f' : Framer}
    {buffer rest : Bytes} {a : α} (h : receiveWith read f buffer = (.ok (some a), f', rest)) :
    rest.length < buffer.length := by
  unfold receiveWith at h
  split at h
  · simp at h
  · simp at h
  next v g r hcut =>
    simp only [Prod.mk.injEq] at h
    obtain ⟨-, -, rfl⟩ := h
    exact Framer.length_next_lt hcut

/-- What the server's end yields from the bytes it has: the requests in their order, the fault
behind them, if any, and the bytes that were not decoded. -/
structure Requests where
  requests : List Request
  fault : Option Fault
  last : ServerEnd
  rest : Bytes

/-- Takes requests until no complete one is left or a fault arises. -/
def ServerEnd.drain (e : ServerEnd) (buffer : Bytes) : Requests :=
  match h : receiveWith Request.ofValue e.framer buffer with
  | (.ok none, framer, rest) => ⟨[], none, ⟨framer⟩, rest⟩
  | (.error fault, framer, rest) => ⟨[], some fault, ⟨framer⟩, rest⟩
  | (.ok (some r), framer, rest) =>
    have := length_receiveWith_lt h
    let more := drain ⟨framer⟩ rest
    { more with requests := r :: more.requests }
termination_by buffer.length

end BoardLink.Wire
