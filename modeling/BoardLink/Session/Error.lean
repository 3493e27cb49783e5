import BoardLink.Wire.Fault

/-!
# Errors of a session

What an operation of a session can fail with. The fatal ones, which say that the connection cannot
be used any more, end the session; the others leave it open. Each error is a cause;
`SessionError.message` is its wording and `SessionError.inspect` its long form.
-/

namespace BoardLink

open BoardLink.MessagePack

/-- In which way an answer lacks the shape that its request implies. -/
inductive PayloadFault where
  | deviceSerial (v : Value)
  | deviceList (v : Option Value)
  | reprogramResult (v : Option Value)
  | registerValue (v : Option Value)
  | byteBlock (v : Option Value)
  | other (what : String)

/-- Why an operation refused its arguments. -/
inductive ArgumentFault where
  /-- A count that does not fit the wire. -/
  | countTooLarge (count : Nat)
  | channelOutOfRange (index channels : Nat)
  | noRoom (words free : Nat)
  | notEnough (words available : Nat)
  | other (what : String)

/-- What an operation of a session can fail with. -/
inductive SessionError where
  /-- The transport failed. -/
  | io (fault : IoFault)
  /-- The server has gone. -/
  | connectionClosed
  /-- The server sent what is no message of the protocol. -/
  | protocol (fault : Wire.Fault)
  /-- The server answered with a negative rcode. -/
  | server (rcode : Int64) (message : String)
  /-- No answer is queued, and the transport cannot receive one. -/
  | noDataSource
  | unexpectedPayload (why : PayloadFault)
  /-- An answer holds a block of another length than was asked for. -/
  | lengthMismatch (expected got : Nat)
  | unknownDevice (serial : String)
  | invalidArgument (why : ArgumentFault)
  /-- The session has ended earlier. -/
  | closed

/-- The wording of a payload fault. -/
def PayloadFault.message : PayloadFault → String
  | .deviceSerial v => "device serial " ++ v.render
  | .deviceList v => "device list " ++ inspectOption v
  | .reprogramResult v => "reprogram result " ++ inspectOption v
  | .registerValue v => "register value " ++ inspectOption v
  | .byteBlock v => "byte block " ++ inspectOption v
  | .other what => what

/-- The wording of an argument fault. -/
def ArgumentFault.message : ArgumentFault → String
  | .countTooLarge count => "count " ++ toString count ++ " is too large"
  | .channelOutOfRange index channels =>
    "channel " ++ toString index ++ " out of range 0.." ++ toString channels
  | .noRoom words free =>
    toString words ++ " words do not fit into " ++ toString free ++ " free SDRAM words"
  | .notEnough words available =>
    toString words ++ " words requested, but only " ++ toString available ++ " in SDRAM"
  | .other what => what

namespace SessionError

/-- Whether the error ends the session. -/
def isFatal : SessionError → Bool
  | .io _ | .connectionClosed | .protocol _ => true
  | _ => false

/-- A stream fault as an error of the session: a channel fault is one of the transport. -/
def ofFault : Wire.Fault → SessionError
  | .io fault => .io fault
  | fault => .protocol fault

/-- The wording of an error. -/
def message : SessionError → String
  | .io fault => fault.message
  | .connectionClosed => "Connection closed by server"
  | .protocol fault => "Protocol violation: " ++ fault.message
  | .server rcode message =>
    "Server returned error " ++ toString rcode.toInt ++ ": " ++ message
  | .noDataSource => "Cannot wait for an answer without a receiving transport"
  | .unexpectedPayload why => "Unexpected answer: " ++ why.message
  | .lengthMismatch expected got =>
    "Expected " ++ toString expected ++ " bytes in answer, but got " ++ toString got
  | .unknownDevice serial => "Unknown device " ++ serial
  | .invalidArgument why => "Invalid argument: " ++ why.message
  | .closed => "Client is closed"

/-- The wording of what lies below an error. -/
def cause? : SessionError → Option String
  | .io fault => some fault.message
  | .protocol fault => some fault.message
  | _ => none

/-- The name of the kind of an error. -/
def kindName : SessionError → String
  | .io _ => "Io"
  | .connectionClosed => "ConnectionClosed"
  | .protocol _ => "Protocol"
  | .server _ _ => "Server"
  | .noDataSource => "NoDataSource"
  | .unexpectedPayload _ => "UnexpectedPayload"
  | .lengthMismatch _ _ => "LengthMismatch"
  | .unknownDevice _ => "UnknownDevice"
  | .invalidArgument _ => "InvalidArgument"
  | .closed => "Closed"

/-- The long form of an error: the name of its kind, and what it carries. -/
def inspect (e : SessionError) : String :=
  e.kindName ++ match e with
  | .io fault => "(" ++ fault.inspect ++ ")"
  | .protocol fault => "(" ++ fault.inspect ++ ")"
  | .server rcode message =>
    " \x7b rcode: " ++ toString rcode.toInt ++ ", message: " ++ quoted message ++ " \x7d"
  | .unexpectedPayload why => "(" ++ quoted why.message ++ ")"
  | .lengthMismatch expected got =>
    " \x7b expected: " ++ toString expected ++ ", got: " ++ toString got ++ " \x7d"
  | .unknownDevice serial => "(" ++ quoted serial ++ ")"
  | .invalidArgument why => "(" ++ quoted why.message ++ ")"
  | .connectionClosed | .noDataSource | .closed => ""

end SessionError

end BoardLink
