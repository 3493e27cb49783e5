import BoardLink.Session.Receive
import BoardLink.Wire.Request

/-!
# Requests and answers

A request is sent as a whole, in as many sends as the transport needs. Its answer is the oldest one
that has not been taken: answers carry no identifier, so they are matched to requests by their order
alone.
-/

namespace BoardLink

open BoardLink.Wire

namespace Session

variable {τ κ : Type} [Transport τ]

/-- Sends what remains of a message. An interrupted send is tried again; any other failure ends the
session. -/
def sendAll (remaining : Bytes) (s : Session τ κ) : Except SessionError Unit × Session τ κ :=
  match remaining with
  | [] => (.ok (), s)
  | b :: rest =>
    match h : Transport.send s.transport (b :: rest) with
    | (.ok 0, transport) => fail .connectionClosed { s with transport }
    | (.ok (n + 1), transport) => sendAll (rest.drop n) { s with transport }
    | (.error fault, transport) =>
      if hk : fault.kind = .interrupted then
        have := Transport.sendPatience_lt h hk
        sendAll (b :: rest) { s with transport }
      else fail (.io fault) { s with transport }
termination_by (remaining.length, Transport.sendPatience s.transport)
decreasing_by
  · apply Prod.Lex.left
    simp only [List.length_drop, List.length_cons]
    omega
  · exact Prod.Lex.right _ this

/-- Encodes a request and sends all of it. -/
def sendRequest (r : Request) : SessionM τ κ Unit := do
  ensureOpen
  sendAll r.encode

/-- What an answer means to the caller: a negative rcode is the server's error. -/
def answerOutcome (a : Answer) : Except SessionError Answer :=
  if a.rcode < 0 then .error (.server a.rcode a.errorMessage) else .ok a

variable [Capability κ]

/-- Takes the oldest answer, receiving until there is one. -/
def awaitAnswer (s : Session τ κ) : Except SessionError Answer × Session τ κ :=
  match s.answers with
  | a :: answers => (answerOutcome a, { s with answers })
  | [] =>
    if Transport.canReceive s.transport then
      match h : receiveMore false s with
      | (.error e, s') => (.error e, s')
      | (.ok _, s') =>
        have := receivePatience_receiveMore h
        awaitAnswer s'
    else (.error .noDataSource, s)
termination_by Transport.receivePatience s.transport

/-- Returns the oldest answer, or the error it carries. -/
def waitForAnswer : SessionM τ κ Answer := do
  ensureOpen
  awaitAnswer

/-- Sends a request and waits for its answer. -/
def call (r : Request) : SessionM τ κ Answer := do
  sendRequest r
  waitForAnswer

end Session

end BoardLink
