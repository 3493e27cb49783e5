import BoardLink.Transport.Basic
import BoardLink.Wire.Endpoint

/-!
# A server with prepared replies

`Replying` is a connection whose other side answers the first request with the first of its prepared
blocks, the second one with the second, and so on. With no block left it ends its side of the
stream, or keeps it open and says nothing.
-/

namespace BoardLink

open BoardLink.Wire

/-- A connection to a server with prepared replies. -/
structure Replying where
  /-- The replies that were not sent yet. -/
  replies : List Bytes := []
  /-- Whether the server keeps the stream open behind its last reply. -/
  silent : Bool := false
  reader : ServerEnd := {}
  /-- Bytes from the client that were not decoded yet. -/
  undecoded : Bytes := []
  /-- All requests so far. -/
  received : List Request := []
  /-- Bytes for the client that were not taken yet. -/
  available : Bytes := []

namespace Replying

/-- Takes one request and sends the reply to it, if there is one. -/
def handle (t : Replying) (r : Request) : Replying :=
  { t with
    received := t.received ++ [r]
    available := t.available ++ t.replies.headD []
    replies := t.replies.tail }

/-- Takes bytes from the client. -/
def accept (t : Replying) (data : Bytes) : Replying :=
  let cut := t.reader.drain (t.undecoded ++ data)
  cut.requests.foldl handle { t with reader := cut.last, undecoded := cut.rest }

/-- What the client receives. -/
def receive (t : Replying) (size : Nat) : Except IoFault Bytes × Replying :=
  if t.available.isEmpty then
    (if t.replies.isEmpty && !t.silent then .ok [] else .error noResponse, t)
  else (.ok (t.available.take size), { t with available := t.available.drop size })

end Replying

instance : Transport Replying where
  send t offered := (.ok offered.length, t.accept offered)
  receive := Replying.receive
  canReceive _ := true
  sendPatience _ := 0
  receivePatience t := t.available.length
  sendPatience_lt h _ := by simp at h
  receivePatience_lt_of_data h hne := by
    unfold Replying.receive at h
    split at h
    · simp only [Prod.mk.injEq] at h
      split at h
      · exact absurd (Except.ok.inj h.1).symm hne
      · simp at h
    · simp only [Prod.mk.injEq, Except.ok.injEq] at h
      rw [← h.2]
      exact length_drop_lt_of_take h.1 hne
  receivePatience_lt_of_fault h hk := by
    unfold Replying.receive at h
    split at h
    · simp only [Prod.mk.injEq] at h
      split at h
      · simp at h
      · rw [← Except.error.inj h.1] at hk
        simp [noResponse] at hk
    · simp at h

end BoardLink
