import BoardLink.Session.Basic

/-!
# Receiving

Bytes reach a session from its transport or are fed to it. Each pass decodes all complete packets:
answers are queued, events act on the registry, unknown packets are counted. If the pass queued
anything the ready hook runs once, after all packets. If it ended with a fault the session then
ends: its answers are forgotten, its devices are removed, and the hook runs again if that queued
notifications.

* `Session.receivePatience_receiveMore` — a receive that goes on uses up some of the transport's
  patience.
-/

namespace BoardLink

open BoardLink.Wire

namespace Session

variable {τ κ : Type}

/-- Takes over a registry whose notifications may have grown, and wakes the application if they
have. -/
def adopt (s : Session τ κ) (registry : Registry κ) : Session τ κ :=
  let grown := registry.pending - s.registry.pending
  let s := { s with registry, queued := s.queued + grown }
  if 0 < grown then s.wake else s

/-- Ends the session: answers are forgotten and devices removed. -/
def shutDown (s : Session τ κ) : Session τ κ :=
  { s with closed := true, answers := [] }.adopt s.registry.clear

/-- Closes the session, if it is open. -/
def close (s : Session τ κ) : Session τ κ :=
  if s.closed then s else s.shutDown

/-- Fails with an error, which ends the session if it is fatal. -/
def fail {α : Type} (e : SessionError) (s : Session τ κ) : Except SessionError α × Session τ κ :=
  (.error e, if e.isFatal then s.close else s)

/-- Refuses to go on once the session has ended. -/
def ensureOpen : SessionM τ κ Unit := do
  if (← get).closed then throw .closed

variable [Capability κ]

/-- Takes over one packet. -/
def dispatch (s : Session τ κ) : Packet → Session τ κ
  | .answer a => { s with answers := s.answers ++ [a], queued := s.queued + 1 }
  | .event e =>
    let (told, registry) := s.registry.apply e
    { s with registry, queued := s.queued + told.toNat }
  | .unknown _ _ => { s with unknownRcodes := s.unknownRcodes + 1 }

/-- Takes over packets in their order, and wakes the application if that queued anything. -/
def dispatchAll (s : Session τ κ) (packets : List Packet) : Session τ κ :=
  let after := packets.foldl dispatch s
  if s.queued < after.queued then after.wake else after

/-- Decodes and takes over all complete packets in the inbox. -/
def process (s : Session τ κ) : Except SessionError Unit × Session τ κ :=
  let (drained, inbox) := s.inbox.drain
  let after := { s with inbox }.dispatchAll drained.packets
  match drained.fault with
  | none => (.ok (), after)
  | some fault => fail (.ofFault fault) after

/-- Takes over bytes that arrived. -/
def deliver (data : Bytes) (s : Session τ κ) : Except SessionError Unit × Session τ κ :=
  process { s with inbox := s.inbox.feed data }

/-- Takes over bytes that were received outside the transport. -/
def feed (data : Bytes) : SessionM τ κ Unit := do
  ensureOpen
  deliver data

variable [Transport τ]

/-- Receives once and takes over what arrived. Returns the number of bytes; zero means that nothing
has arrived yet and the caller may ask again. -/
def receiveMore (tolerateTimeout : Bool) (s : Session τ κ) :
    Except SessionError Nat × Session τ κ :=
  match Transport.receive s.transport s.config.bufferSize with
  | (.ok [], transport) => fail .connectionClosed { s with transport }
  | (.ok (b :: data), transport) =>
    match deliver (b :: data) { s with transport } with
    | (.ok (), s') => (.ok (data.length + 1), s')
    | (.error e, s') => (.error e, s')
  | (.error fault, transport) =>
    if fault.kind = .wouldBlock ∨ fault.kind = .interrupted then (.ok 0, { s with transport })
    else if tolerateTimeout && fault.kind = .timedOut then (.ok 0, { s with transport })
    else fail (.io fault) { s with transport }

/-- Waits for events once, and hands out the notifications queued so far. That nothing arrives in
time is no error here. -/
def pollEvents : SessionM τ κ (List Notification) := do
  ensureOpen
  if Transport.canReceive (← get).transport then
    let _ ← receiveMore true
  modifyGet takeNotifications

/-! ### What receiving does to the transport -/

omit [Capability κ] [Transport τ] in
@[simp] theorem adopt_transport (s : Session τ κ) (r : Registry κ) :
    (s.adopt r).transport = s.transport := by
  unfold adopt
  simp only
  split <;> simp

omit [Capability κ] [Transport τ] in
@[simp] theorem close_transport (s : Session τ κ) : s.close.transport = s.transport := by
  unfold close
  split <;> simp [shutDown]

omit [Transport τ] in
@[simp] theorem dispatch_transport (s : Session τ κ) (p : Packet) :
    (s.dispatch p).transport = s.transport := by
  cases p <;> rfl

omit [Transport τ] in
@[simp] theorem foldl_dispatch_transport (s : Session τ κ) (packets : List Packet) :
    (packets.foldl dispatch s).transport = s.transport := by
  induction packets generalizing s with
  | nil => rfl
  | cons p packets ih => simp [ih]

omit [Transport τ] in
@[simp] theorem dispatchAll_transport (s : Session τ κ) (packets : List Packet) :
    (s.dispatchAll packets).transport = s.transport := by
  unfold dispatchAll
  simp only
  split <;> simp

omit [Transport τ] in
/-- Decoding leaves the transport alone. -/
theorem process_transport {s s' : Session τ κ} {result : Except SessionError Unit}
    (h : process s = (result, s')) : s'.transport = s.transport := by
  unfold process at h
  simp only at h
  split at h
  · simp only [Prod.mk.injEq] at h
    simp [← h.2]
  · simp only [fail, Prod.mk.injEq] at h
    rw [← h.2]
    split <;> simp

/-- A receive that goes on uses up some of the transport's patience. -/
theorem receivePatience_receiveMore {s s' : Session τ κ} {n : Nat}
    (h : receiveMore false s = (.ok n, s')) :
    Transport.receivePatience s'.transport < Transport.receivePatience s.transport := by
  unfold receiveMore at h
  split at h
  · simp [fail] at h
  next b data t hr =>
    split at h
    next hd =>
      simp only [Prod.mk.injEq] at h
      rw [← h.2, process_transport hd]
      exact Transport.receivePatience_lt_of_data hr (by simp)
    · simp at h
  next fault t hr =>
    split at h
    next hk =>
      simp only [Prod.mk.injEq] at h
      rw [← h.2]
      exact Transport.receivePatience_lt_of_fault hr hk
    · simp [fail] at h

end Session

end BoardLink
