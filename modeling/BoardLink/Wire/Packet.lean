import BoardLink.MessagePack.Encode
import BoardLink.Wire.Field

/-!
# Packets

A packet goes from the server to the client as the array `[rcode, fields…]`. The rcode tells what it
is: zero or a negative number answers a request, 1 to 3 report an event, and any larger number is
unknown to this protocol.
-/

namespace BoardLink.Wire

open BoardLink.MessagePack

/-- The reply to one request: rcode zero for success, a negative one for failure. -/
structure Answer where
  rcode : Int64
  payload : List Value

namespace Answer

/-- A successful answer with one field. -/
def success (v : Value) : Answer := ⟨0, [v]⟩

/-- A failed answer with a description. -/
def failure (message : String) : Answer := ⟨-1, [.str message]⟩

/-- Whether the request succeeded. -/
def isOk (a : Answer) : Bool := a.rcode = 0

/-- The first field, which holds the result of most requests. -/
def value? (a : Answer) : Option Value := a.payload.head?

/-- The description of a failure. Anything that is not text is shown as a whole, so nothing is
lost. -/
def errorMessage (a : Answer) : String :=
  match a.value?.bind Value.asText? with
  | some text => text
  | none => inspectList a.payload

end Answer

/-- What a server reports without being asked. -/
inductive Event where
  | added (serial : String)
  | removed (serial : String)
  | changed (serial : String) (addr port : UInt8) (value : UInt16)
  deriving DecidableEq, Repr

namespace Event

/-- The rcode of an event. -/
def rcode : Event → Int64
  | .added .. => 1
  | .removed .. => 2
  | .changed .. => 3

/-- The device an event is about. -/
def serial : Event → String
  | .added serial | .removed serial | .changed serial .. => serial

end Event

/-- What a server sends. -/
inductive Packet where
  | answer (a : Answer)
  | event (e : Event)
  | unknown (rcode : Int64) (fields : List Value)

namespace Packet

/-- The leading field. -/
def rcode : Packet → Int64
  | .answer a => a.rcode
  | .event e => e.rcode
  | .unknown rcode _ => rcode

/-- The fields behind the rcode. -/
def fields : Packet → List Value
  | .answer a => a.payload
  | .event (.added serial) => [.str serial]
  | .event (.removed serial) => [.str serial]
  | .event (.changed serial addr port value) =>
    [.str serial, .ofNat64 addr.toUInt64, .ofNat64 port.toUInt64, .ofNat64 value.toUInt64]
  | .unknown _ fields => fields

/-- The packet as a value. -/
def toValue (p : Packet) : Value :=
  .array (.int (.ofInt64 p.rcode) :: p.fields)

/-- The bytes of the packet on the wire. -/
def encode (p : Packet) : Bytes := p.toValue.encode

/-- Classifies the fields of a packet by its rcode. -/
def ofFields (rcode : Int64) (fields : List Value) : Except Fault Packet :=
  if rcode ≤ 0 then return .answer ⟨rcode, fields.drop 1⟩
  else if rcode = 1 then return .event (.added (← textField fields 1 "serial"))
  else if rcode = 2 then return .event (.removed (← textField fields 1 "serial"))
  else if rcode = 3 then
    return .event (.changed (← textField fields 1 "serial") (← uint8Field fields 2 "addr")
      (← uint8Field fields 3 "port") (← uint16Field fields 4 "value"))
  else return .unknown rcode (fields.drop 1)

/-- Reads a packet as a client receives it. What is not an array with a leading integer is no
packet. -/
def ofValue : Value → Except Fault Packet
  | .array [] => .error (.invalidPacket .empty)
  | .array (first :: rest) =>
    match first.asInt64? with
    | some rcode => ofFields rcode (first :: rest)
    | none => .error (.invalidPacket (.rcodeNotInteger first))
  | other => .error (.invalidPacket (.notAnArray other))

end Packet

/-- The encodings of packets one after the other. -/
def encodePackets (packets : List Packet) : Bytes :=
  packets.flatMap Packet.encode

end BoardLink.Wire
