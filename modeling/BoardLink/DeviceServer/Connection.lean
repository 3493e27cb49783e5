import BoardLink.DeviceServer.Basic
import BoardLink.Transport.Basic
import BoardLink.Wire.Endpoint

/-!
# A connection to a device server

A `Connection` is the server's side of one connection. Bytes from the client are cut into requests;
each request is answered in turn, after what is scheduled in front of its answer. The connection
ends when the schedule says so, at a request that cannot be understood, or when the client has
finished sending.

As a transport, a connection is what a client sees of it: what the client sends is answered at once,
and what the server wrote can be received. When nothing is left to receive, an ended connection is
closed and a live one keeps silent.
-/

namespace BoardLink

open BoardLink.Wire

/-- The server's side of a connection. -/
structure Connection where
  server : DeviceServer := {}
  reader : ServerEnd := {}
  /-- Bytes from the client that were not decoded yet. -/
  undecoded : Bytes := []
  /-- All requests so far. -/
  received : List Request := []
  /-- Bytes for the client that were not taken yet. -/
  output : Bytes := []
  /-- How the connection ended, if it did. -/
  ending : Option (Except Fault Unit) := none

/-- What the server's end fails with when the client stops inside a request. -/
def bytesRemaining : Fault := .io { kind := .other, message := "bytes remaining on stream" }

namespace Connection

/-- Does what is scheduled; nothing happens behind the end of the connection. -/
def act (c : Connection) (action : Action) : Connection :=
  match c.ending, action with
  | some _, _ => c
  | none, .send p => { c with server := c.server.follow p, output := c.output ++ p.encode }
  | none, .garbage bytes => { c with output := c.output ++ bytes }
  | none, .close => { c with ending := some (.ok ()) }

/-- Answers a request, unless the schedule ends the connection first. -/
def reply (c : Connection) (r : Request) : Connection :=
  match c.ending with
  | some _ => c
  | none =>
    let (answer, server) := c.server.answer r
    { c with server, output := c.output ++ (Packet.answer answer).encode }

/-- Takes one request: what is scheduled in front of its answer, then the answer. -/
def handle (c : Connection) (r : Request) : Connection :=
  match c.ending with
  | some _ => c
  | none =>
    let scheduled := c.server.actionsAt c.received.length
    (scheduled.foldl act { c with received := c.received ++ [r] }).reply r

/-- Ends the connection, if it has not ended yet. -/
def finish (c : Connection) (ending : Except Fault Unit) : Connection :=
  match c.ending with
  | some _ => c
  | none => { c with ending := some ending }

/-- Takes bytes from the client. -/
def accept (c : Connection) (data : Bytes) : Connection :=
  match c.ending with
  | some _ => c
  | none =>
    let cut := c.reader.drain (c.undecoded ++ data)
    let c := cut.requests.foldl handle { c with reader := cut.last, undecoded := cut.rest }
    match cut.fault with
    | none => c
    | some fault => c.finish (.error fault)

/-- The client has finished sending. Bytes behind the last request are a fault. -/
def clientDone (c : Connection) : Connection :=
  c.finish (if c.undecoded.isEmpty then .ok () else .error bytesRemaining)

/-- What the server reports once the connection has ended: its requests, or the fault that ended
it. -/
def outcome (c : Connection) : Except Fault (List Request) :=
  match c.ending with
  | some (.error fault) => .error fault
  | _ => .ok c.received

/-- What a client receives. -/
def receive (c : Connection) (size : Nat) : Except IoFault Bytes × Connection :=
  if c.output.isEmpty then (if c.ending.isSome then .ok [] else .error noResponse, c)
  else (.ok (c.output.take size), { c with output := c.output.drop size })

end Connection

instance : Transport Connection where
  send c offered := (.ok offered.length, c.accept offered)
  receive := Connection.receive
  canReceive _ := true
  sendPatience _ := 0
  receivePatience c := c.output.length
  sendPatience_lt h _ := by simp at h
  receivePatience_lt_of_data h hne := by
    unfold Connection.receive at h
    split at h
    · simp only [Prod.mk.injEq] at h
      split at h
      · exact absurd (Except.ok.inj h.1).symm hne
      · simp at h
    · simp only [Prod.mk.injEq, Except.ok.injEq] at h
      rw [← h.2]
      exact length_drop_lt_of_take h.1 hne
  receivePatience_lt_of_fault h hk := by
    unfold Connection.receive at h
    split at h
    · simp only [Prod.mk.injEq] at h
      split at h
      · simp at h
      · rw [← Except.error.inj h.1] at hk
        simp [noResponse] at hk
    · simp at h

end BoardLink
