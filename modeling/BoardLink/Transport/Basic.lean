import BoardLink.Bytes
import BoardLink.IoFault

/-!
# Transports

A session talks through two primitives: offer bytes for sending, and wait for bytes to arrive.
Anything that provides them can carry the protocol, be it a socket, a pipe or a script.

A transport may ask to be tried again, and it may go on delivering. So that every wait ends, it
bounds how often: each repeated try and each delivery uses up some of its patience.
-/

namespace BoardLink

/-- A byte channel with state `τ`. -/
class Transport (τ : Type) where
  /-- Accepts some of the offered bytes, from the front, and tells how many. None means that the
  other side has gone. -/
  send : τ → (offered : Bytes) → Except IoFault Nat × τ
  /-- Delivers at most `size` bytes. None means that the connection has been closed; a fault of kind
  `wouldBlock` or `interrupted` that the session should ask again. -/
  receive : τ → (size : Nat) → Except IoFault Bytes × τ
  /-- Whether `receive` can be used. A transport whose bytes are fed to the session by someone else
  says no. -/
  canReceive : τ → Bool
  /-- How often a send can still be interrupted. -/
  sendPatience : τ → Nat
  /-- How often a receive can still deliver or ask for another try. -/
  receivePatience : τ → Nat
  sendPatience_lt {t t' : τ} {offered : Bytes} {f : IoFault} :
    send t offered = (.error f, t') → f.kind = .interrupted → sendPatience t' < sendPatience t
  receivePatience_lt_of_data {t t' : τ} {size : Nat} {data : Bytes} :
    receive t size = (.ok data, t') → data ≠ [] → receivePatience t' < receivePatience t
  receivePatience_lt_of_fault {t t' : τ} {size : Nat} {f : IoFault} :
    receive t size = (.error f, t') → f.kind = .wouldBlock ∨ f.kind = .interrupted →
      receivePatience t' < receivePatience t

/-- What a receive fails with when nothing arrives in time. -/
def noResponse : IoFault where
  kind := .timedOut
  message := "no response from server"

/-- What connecting fails with when a timeout is zero. -/
def zeroTimeout : IoFault where
  kind := .invalidInput
  message := "cannot set a 0 duration timeout"
  setPhrase := true

/-- Refuses a timeout of zero milliseconds, in which nothing could ever arrive. -/
def checkTimeout (timeout : Nat) : Except IoFault Unit :=
  if timeout = 0 then .error zeroTimeout else .ok ()

/-- Taking bytes off the front of a list that yields some makes it shorter. -/
theorem length_drop_lt_of_take {α : Type} {l taken : List α} {n : Nat} (h : l.take n = taken)
    (hne : taken ≠ []) : (l.drop n).length < l.length := by
  subst h
  simp only [ne_eq, List.take_eq_nil_iff, not_or] at hne
  have := List.length_pos_iff.2 hne.2
  simp only [List.length_drop]
  omega

end BoardLink
