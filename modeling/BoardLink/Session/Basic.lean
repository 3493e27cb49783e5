import BoardLink.Registry
import BoardLink.Session.Error
import BoardLink.Transport.Basic
import BoardLink.Wire.Inbox

/-!
# Sessions

A session is a client's side of one connection: the transport, the inbox that its bytes go through,
the answers that were received and not asked for yet, and the registry that events act on. It starts
open and ends for good with the first fatal error or when it is closed.

The application can be woken by a ready hook whenever something was queued for it. A hook is told
about everything queued so far; the session counts its runs and remembers what the last one covered.
-/

namespace BoardLink

/-- The settings of a session. -/
structure Config where
  /-- How long a receive waits before the server counts as unresponsive, in milliseconds. -/
  readTimeout : Nat := 5000
  /-- How long a send waits, in milliseconds. -/
  writeTimeout : Nat := 5000
  /-- How many bytes are asked for in one receive. -/
  receiveChunk : Nat := 8 * 1024
  /-- The largest message that is accepted. -/
  messageLimit : Nat := MessagePack.defaultMessageLimit
  deriving DecidableEq, Repr

/-- Sets the size of a receive, which is at least one byte. -/
def Config.withReceiveChunk (c : Config) (size : Nat) : Config :=
  { c with receiveChunk := max size 1 }

/-- Refuses timeouts that a connection cannot be given. -/
def Config.checkTimeouts (c : Config) : Except IoFault Unit := do
  checkTimeout c.readTimeout
  checkTimeout c.writeTimeout

/-- The size of the receive buffer, which is never empty. -/
def Config.bufferSize (c : Config) : Nat := max c.receiveChunk 1

/-- The hook that wakes the application. -/
structure ReadyHook where
  installed : Bool := false
  /-- How often a hook was run. -/
  runs : Nat := 0
  /-- How many of the items queued in the session's life the last run came after. -/
  covered : Nat := 0
  deriving DecidableEq, Repr

/-- A client's side of a connection, over a transport of type `τ`, with capabilities of type `κ`. -/
structure Session (τ κ : Type) where
  transport : τ
  config : Config := {}
  inbox : Wire.Inbox := {}
  /-- Answers that were received and not taken, the oldest first. -/
  answers : List Wire.Answer := []
  registry : Registry κ := {}
  hook : ReadyHook := {}
  /-- The number of answers and notifications queued so far, taken or not. -/
  queued : Nat := 0
  /-- The number of packets with an rcode that the protocol does not know. It is counted without the
  bound of a 64 bit counter, which no session reaches: that takes `2 ^ 64` packets. -/
  unknownRcodes : Nat := 0
  closed : Bool := false

/-- A fallible operation of a session. -/
abbrev SessionM (τ κ : Type) := ExceptT SessionError (StateM (Session τ κ))

namespace Session

variable {τ κ : Type}

/-- An open session that has neither sent nor received anything. Without a table of its own it uses
the shared one. -/
def create (transport : τ) (config : Config) (own : Option (CapabilityTable κ))
    (shared : CapabilityTable κ) : Session τ κ where
  transport := transport
  config := config
  inbox := .withLimit config.messageLimit
  registry := { own := own, shared := shared }

/-- The device with a serial, if it is attached. -/
def device? (s : Session τ κ) (serial : String) : Option (Device κ) := s.registry.get? serial

/-- The serials of all attached devices, in ascending order. -/
def devices (s : Session τ κ) : List String := s.registry.serials

/-- The number of answers received and not taken. -/
def pendingAnswers (s : Session τ κ) : Nat := s.answers.length

/-- The number of register changes that named no attached device. -/
def droppedChanges (s : Session τ κ) : Nat := s.registry.dropped

/-- Installs a ready hook in place of the one before. -/
def setHook (s : Session τ κ) : Session τ κ :=
  { s with hook := { s.hook with installed := true } }

/-- Runs the ready hook, if there is one. -/
def wake (s : Session τ κ) : Session τ κ :=
  if s.hook.installed then
    { s with hook := { s.hook with runs := s.hook.runs + 1, covered := s.queued } }
  else s

/-- Hands out the notifications queued so far. -/
def takeNotifications (s : Session τ κ) : List Notification × Session τ κ :=
  let (notifications, registry) := s.registry.takeNotifications
  (notifications, { s with registry })

/-- Registers a capability in the table that all sessions of the process share. -/
def registerShared (s : Session τ κ) (lead : String) (make : String → κ) : Session τ κ :=
  { s with registry := s.registry.registerShared lead make }

@[simp] theorem wake_transport (s : Session τ κ) : s.wake.transport = s.transport := by
  unfold wake
  split <;> rfl

end Session

end BoardLink
