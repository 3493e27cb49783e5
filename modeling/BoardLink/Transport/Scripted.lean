import BoardLink.Transport.Basic

/-!
# Scripted transports

A `Sender` accepts bytes as a script tells: item by item it takes a number of bytes or fails, and
when the script is used up it takes all it is offered, or at most a fixed number. `Scripted` adds a
script of what arrives. `SendOnly` has a sender alone; what arrives on its connection is fed to the
session by its owner.
-/

namespace BoardLink

/-- What happens to one send. -/
inductive SendStep where
  /-- At most `limit` bytes are accepted. -/
  | accept (limit : Nat)
  | fail (fault : IoFault)
  deriving DecidableEq, Repr

/-- The sending half of a scripted channel. -/
structure Sender where
  script : List SendStep := []
  /-- What a send accepts at most once the script is used up. -/
  limit : Option Nat := none
  /-- All bytes accepted so far. -/
  accepted : Bytes := []
  deriving DecidableEq, Repr

namespace Sender

/-- Accepts some bytes from the front of what is offered. -/
def accept (s : Sender) (n : Nat) (offered : Bytes) : Except IoFault Nat × Sender :=
  let taken := offered.take n
  (.ok taken.length, { s with accepted := s.accepted ++ taken })

/-- Sends as the script tells. -/
def send (s : Sender) (offered : Bytes) : Except IoFault Nat × Sender :=
  match s.script with
  | .accept n :: rest => { s with script := rest }.accept n offered
  | .fail fault :: rest => (.error fault, { s with script := rest })
  | [] => s.accept (s.limit.getD offered.length) offered

/-- A send fails only by an item of the script. -/
theorem length_script_lt {s s' : Sender} {offered : Bytes} {f : IoFault}
    (h : s.send offered = (.error f, s')) : s'.script.length < s.script.length := by
  unfold send accept at h
  split at h
  · simp at h
  next hs =>
    simp only [Prod.mk.injEq] at h
    rw [← h.2, hs]
    simp
  · simp at h

end Sender

/-- What happens to one receive. -/
inductive Arrival where
  /-- A block of bytes, which may be taken in several receives. An empty block ends the
  connection. -/
  | data (block : Bytes)
  | fail (fault : IoFault)
  deriving DecidableEq, Repr

/-- A channel whose two halves follow scripts. -/
structure Scripted where
  sender : Sender := {}
  arrivals : List Arrival := []
  /-- The number of receives so far. -/
  receives : Nat := 0
  deriving DecidableEq, Repr

/-- How many receives an arrival can take. -/
def Arrival.weight : Arrival → Nat
  | .data block => block.length + 1
  | .fail _ => 1

namespace Scripted

/-- How many receives a script can take. -/
def weight (arrivals : List Arrival) : Nat :=
  arrivals.foldr (fun a total => a.weight + total) 0

/-- Receives as the script tells. With no script left the connection is closed. -/
def receive (t : Scripted) (size : Nat) : Except IoFault Bytes × Scripted :=
  let t := { t with receives := t.receives + 1 }
  match t.arrivals with
  | [] => (.ok [], t)
  | .fail fault :: rest => (.error fault, { t with arrivals := rest })
  | .data block :: rest =>
    if size < block.length then
      (.ok (block.take size), { t with arrivals := .data (block.drop size) :: rest })
    else (.ok block, { t with arrivals := rest })

/-- A receive uses up some of the script unless it delivers nothing. -/
theorem weight_lt {t t' : Scripted} {size : Nat} {result : Except IoFault Bytes}
    (h : t.receive size = (result, t')) (hne : result ≠ .ok []) :
    weight t'.arrivals < weight t.arrivals := by
  unfold receive at h
  simp only at h
  split at h
  · simp only [Prod.mk.injEq] at h
    exact absurd h.1.symm hne
  next hs =>
    simp only [Prod.mk.injEq] at h
    rw [← h.2, hs]
    simp [weight, Arrival.weight]
  next block rest hs =>
    split at h
    next hlt =>
      simp only [Prod.mk.injEq] at h
      have : size ≠ 0 := by
        rintro rfl
        exact hne (by rw [← h.1, List.take_zero])
      rw [← h.2, hs]
      simp [weight, Arrival.weight]
      omega
    · simp only [Prod.mk.injEq] at h
      rw [← h.2, hs]
      simp [weight, Arrival.weight]

end Scripted

instance : Transport Scripted where
  send t offered :=
    let (result, sender) := t.sender.send offered
    (result, { t with sender })
  receive := Scripted.receive
  canReceive _ := true
  sendPatience t := t.sender.script.length
  receivePatience t := Scripted.weight t.arrivals
  sendPatience_lt h _ := by
    simp only [Prod.mk.injEq] at h
    rw [← h.2]
    exact Sender.length_script_lt (Prod.ext h.1 rfl)
  receivePatience_lt_of_data h hne := Scripted.weight_lt h (by simpa using hne)
  receivePatience_lt_of_fault h _ := Scripted.weight_lt h (by simp)

/-- A channel that can only send. -/
structure SendOnly where
  sender : Sender := {}
  deriving DecidableEq, Repr

/-- What receiving from a channel that can only send fails with. -/
def cannotReceive : IoFault where
  kind := .unsupported
  message := "transport cannot receive"

instance : Transport SendOnly where
  send t offered :=
    let (result, sender) := t.sender.send offered
    (result, ⟨sender⟩)
  receive t _ := (.error cannotReceive, t)
  canReceive _ := false
  sendPatience t := t.sender.script.length
  receivePatience _ := 0
  sendPatience_lt h _ := by
    simp only [Prod.mk.injEq] at h
    rw [← h.2]
    exact Sender.length_script_lt (Prod.ext h.1 rfl)
  receivePatience_lt_of_data h _ := by simp at h
  receivePatience_lt_of_fault h hk := by
    simp only [Prod.mk.injEq, Except.error.injEq] at h
    rw [← h.1] at hk
    simp [cannotReceive] at hk

end BoardLink
