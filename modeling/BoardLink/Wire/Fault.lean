import BoardLink.IoFault
import BoardLink.MessagePack.Framer
import BoardLink.MessagePack.Text

/-!
# Faults of a message stream

What can be wrong with the bytes of the other side, from a channel that failed to a message that is
not what it should be. Each fault is a cause; `Fault.message` is its wording and `Fault.inspect` its
long form.
-/

namespace BoardLink.Wire

open BoardLink.MessagePack

/-- Why a value is no packet. -/
inductive PacketFault where
  | notAnArray (v : Value)
  | rcodeNotInteger (v : Value)
  | empty
  | other (reason : String)

/-- Why bytes are no message, or a message lacks the shape its kind asks for. -/
inductive FormatFault where
  | malformed (why : Malformed)
  | requestNotAnArray (v : Value)
  | noMethod
  | missing (field : String)
  | notText (field : String) (v : Value)
  | outOfRange (field : String) (v : Value)
  | notBytes (field : String) (v : Value)
  /-- The stream is not read on after an earlier fault, which is told again. -/
  | failedEarlier (reason : String)
  | other (reason : String)

/-- What can be wrong with a stream of messages. -/
inductive Fault where
  | io (fault : IoFault)
  | invalidPacket (why : PacketFault)
  | invalidFormat (why : FormatFault)
  | invalidCommand (method : String)
  | tooManyBytes (max got : Nat)

/-- The wording of a packet fault. -/
def PacketFault.message : PacketFault → String
  | .notAnArray v => "expected an array, got " ++ v.render
  | .rcodeNotInteger v => "rcode " ++ v.render ++ " is not an integer"
  | .empty => "empty packet"
  | .other reason => reason

/-- The wording of a malformed value. -/
def malformedMessage (why : Malformed) : String :=
  "Malformed MessagePack data: " ++ match why with
    | .reservedMarker => "reserved marker 0xc1"
    | .tooDeep => "depth limit exceeded"
    | .truncated => "unexpected end of data"

/-- The wording of a format fault. -/
def FormatFault.message : FormatFault → String
  | .malformed why => malformedMessage why
  | .requestNotAnArray v => "Request must be an array, got " ++ v.render
  | .noMethod => "Request has no method"
  | .missing field => "Missing field '" ++ field ++ "'"
  | .notText field v => "Field '" ++ field ++ "' is not a string: " ++ v.render
  | .outOfRange field v => "Field '" ++ field ++ "' is out of range: " ++ v.render
  | .notBytes field v => "Field '" ++ field ++ "' is not a byte block: " ++ v.render
  | .failedEarlier reason => "Stream failed earlier: " ++ reason
  | .other reason => reason

/-- The wording of a fault. -/
def Fault.message : Fault → String
  | .io fault => fault.message
  | .invalidPacket why => "Received invalid packet: " ++ why.message
  | .invalidFormat why => why.message
  | .invalidCommand method => "Received invalid command " ++ method
  | .tooManyBytes max got =>
    "Message too large! Maximum is " ++ toString max ++ " bytes, but it needs at least "
      ++ toString got

/-- The name of the kind of a fault. -/
def Fault.kindName : Fault → String
  | .io _ => "IoError"
  | .invalidPacket _ => "InvalidPacket"
  | .invalidFormat _ => "InvalidFormat"
  | .invalidCommand _ => "InvalidCommand"
  | .tooManyBytes _ _ => "TooManyBytes"

/-- The long form of a fault: the name of its kind, and what it carries. -/
def Fault.inspect (f : Fault) : String :=
  f.kindName ++ match f with
  | .io fault => "(" ++ fault.inspect ++ ")"
  | .invalidPacket why => "(" ++ quoted why.message ++ ")"
  | .invalidFormat why => "(" ++ quoted why.message ++ ")"
  | .invalidCommand method => "(" ++ quoted method ++ ")"
  | .tooManyBytes max got =>
    " \x7b max: " ++ toString max ++ ", got: " ++ toString got ++ " \x7d"

/-- The fault below this one: only a channel fault has one. -/
def Fault.cause? : Fault → Option IoFault
  | .io fault => some fault
  | _ => none

/-- A refused message as a fault of its stream. -/
def Fault.ofFrame : FrameFault → Fault
  | .malformed why => .invalidFormat (.malformed why)
  | .tooLarge max got => .tooManyBytes max got

end BoardLink.Wire
