import BoardLink.Text.Quoted

/-!
# Faults of byte channels

A send or a receive can fail for reasons of the channel. Callers only look at the kind: some kinds
mean "try again", all others that the channel cannot be used any more.
-/

namespace BoardLink

/-- The kinds of channel faults. -/
inductive IoKind where
  | notFound
  | permissionDenied
  | connectionRefused
  | connectionReset
  | hostUnreachable
  | networkUnreachable
  | connectionAborted
  | notConnected
  | addrInUse
  | addrNotAvailable
  | networkDown
  | brokenPipe
  | alreadyExists
  | wouldBlock
  | invalidInput
  | invalidData
  | timedOut
  | writeZero
  | interrupted
  | unsupported
  | unexpectedEof
  | outOfMemory
  | other
  deriving DecidableEq, Repr

namespace IoKind

/-- All kinds. -/
def all : List IoKind :=
  [.notFound, .permissionDenied, .connectionRefused, .connectionReset, .hostUnreachable,
    .networkUnreachable, .connectionAborted, .notConnected, .addrInUse, .addrNotAvailable,
    .networkDown, .brokenPipe, .alreadyExists, .wouldBlock, .invalidInput, .invalidData, .timedOut,
    .writeZero, .interrupted, .unsupported, .unexpectedEof, .outOfMemory, .other]

/-- The name of a kind. -/
def name : IoKind → String
  | .notFound => "NotFound"
  | .permissionDenied => "PermissionDenied"
  | .connectionRefused => "ConnectionRefused"
  | .connectionReset => "ConnectionReset"
  | .hostUnreachable => "HostUnreachable"
  | .networkUnreachable => "NetworkUnreachable"
  | .connectionAborted => "ConnectionAborted"
  | .notConnected => "NotConnected"
  | .addrInUse => "AddrInUse"
  | .addrNotAvailable => "AddrNotAvailable"
  | .networkDown => "NetworkDown"
  | .brokenPipe => "BrokenPipe"
  | .alreadyExists => "AlreadyExists"
  | .wouldBlock => "WouldBlock"
  | .invalidInput => "InvalidInput"
  | .invalidData => "InvalidData"
  | .timedOut => "TimedOut"
  | .writeZero => "WriteZero"
  | .interrupted => "Interrupted"
  | .unsupported => "Unsupported"
  | .unexpectedEof => "UnexpectedEof"
  | .outOfMemory => "OutOfMemory"
  | .other => "Other"

/-- The kind of a given name. -/
def ofName? (s : String) : Option IoKind :=
  all.find? (·.name = s)

/-- Every kind is found by its name. -/
theorem ofName?_name (k : IoKind) : ofName? k.name = some k := by
  cases k <;> decide

end IoKind

/-- A channel fault with its description. -/
structure IoFault where
  kind : IoKind
  message : String
  /-- Whether the description is a set phrase for misuse, and not made by the channel. -/
  setPhrase : Bool := false
  deriving DecidableEq, Repr

/-- The long form of a fault, with its kind. -/
def IoFault.inspect (f : IoFault) : String :=
  if f.setPhrase then
    "Error \x7b kind: " ++ f.kind.name ++ ", message: " ++ quoted f.message ++ " \x7d"
  else "Custom \x7b kind: " ++ f.kind.name ++ ", error: " ++ quoted f.message ++ " \x7d"

end BoardLink
