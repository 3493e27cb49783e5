import BoardLink.Transport.Basic

/-!
# Loopback streams

A `Loopback` is one end of a stream whose other end is in the same hands. Bytes arrive in order and
are kept until they are received. Waiting for bytes that nobody has sent ends with the read timeout.
-/

namespace BoardLink

/-- What a send fails with once the stream was shut down. -/
def brokenPipe : IoFault where
  kind := .brokenPipe
  message := "Broken pipe (os error 32)"

/-- One end of a stream. -/
structure Loopback where
  /-- Bytes that have arrived and were not received. -/
  incoming : Bytes := []
  /-- Whether the other end has finished sending. -/
  peerDone : Bool := false
  /-- Whether this end was shut down. -/
  shut : Bool := false
  /-- How long a receive waits, in milliseconds, if there is a limit. -/
  readTimeout : Option Nat := none
  /-- All bytes delivered to the other end. -/
  delivered : Bytes := []
  deriving DecidableEq, Repr

namespace Loopback

/-- One end of a fresh stream that waits at most `timeout` milliseconds, which must not be zero. -/
def connect (timeout : Nat) : Except IoFault Loopback := do
  checkTimeout timeout
  return { readTimeout := some timeout }

/-- The other end sends bytes, which do not arrive once this end was shut down. -/
def peerSend (t : Loopback) (data : Bytes) : Loopback :=
  if t.shut then t else { t with incoming := t.incoming ++ data }

/-- The other end finishes sending. -/
def peerClose (t : Loopback) : Loopback := { t with peerDone := true }

/-- Shuts this end down in both directions. -/
def shutdown (t : Loopback) : Loopback := { t with shut := true }

/-- Delivers all that is offered, unless the stream was shut down. -/
def send (t : Loopback) (offered : Bytes) : Except IoFault Nat × Loopback :=
  if t.shut then (.error brokenPipe, t)
  else (.ok offered.length, { t with delivered := t.delivered ++ offered })

/-- Receives what has arrived, at most `size` bytes. -/
def receive (t : Loopback) (size : Nat) : Except IoFault Bytes × Loopback :=
  if t.incoming.isEmpty then
    if t.peerDone || t.shut then (.ok [], t) else (.error noResponse, t)
  else (.ok (t.incoming.take size), { t with incoming := t.incoming.drop size })

end Loopback

instance : Transport Loopback where
  send := Loopback.send
  receive := Loopback.receive
  canReceive _ := true
  sendPatience _ := 0
  receivePatience t := t.incoming.length
  sendPatience_lt h hk := by
    unfold Loopback.send at h
    split at h
    · simp only [Prod.mk.injEq, Except.error.injEq] at h
      rw [← h.1] at hk
      simp [brokenPipe] at hk
    · simp at h
  receivePatience_lt_of_data h hne := by
    unfold Loopback.receive at h
    split at h
    · split at h
      · simp only [Prod.mk.injEq, Except.ok.injEq] at h
        exact absurd h.1.symm hne
      · simp at h
    · simp only [Prod.mk.injEq, Except.ok.injEq] at h
      rw [← h.2]
      exact length_drop_lt_of_take h.1 hne
  receivePatience_lt_of_fault h hk := by
    unfold Loopback.receive at h
    split at h
    · split at h
      · simp at h
      · simp only [Prod.mk.injEq, Except.error.injEq] at h
        rw [← h.1] at hk
        simp [noResponse] at hk
    · simp at h

end BoardLink
