import BoardLink.MessagePack.Encode
import BoardLink.Wire.Field

/-!
# Requests

A request goes from the client to the server as the array `[method, fields…]`. It carries no
identifier: the server answers every request once, in the order in which requests arrive.
-/

namespace BoardLink.Wire

open BoardLink.MessagePack

/-- What a client can ask of a server. -/
inductive Request where
  /-- The serials of all attached devices. -/
  | deviceList
  /-- Loads the configuration into the device again. -/
  | reprogram (serial : String)
  /-- Reads a 16 bit register. -/
  | readReg (serial : String) (addr port : UInt8)
  /-- Writes a 16 bit register. -/
  | writeReg (serial : String) (addr port : UInt8) (value : UInt16)
  /-- Writes a block of words, two bytes each, to one register. -/
  | writeRegN (serial : String) (addr port : UInt8) (data : Bytes)
  /-- Reads `count` words from one register. -/
  | readRegN (serial : String) (addr port : UInt8) (count : UInt32)
  /-- Writes bytes to the device's data pipe. -/
  | writeRaw (serial : String) (data : Bytes)
  /-- Reads `count` bytes from the device's data pipe. -/
  | readRaw (serial : String) (count : UInt32)
  deriving DecidableEq, Repr

namespace Request

/-- The name that leads the request on the wire. -/
def method : Request → String
  | .deviceList => "devicelist"
  | .reprogram .. => "reprogram"
  | .readReg .. => "readreg"
  | .writeReg .. => "writereg"
  | .writeRegN .. => "writeregn"
  | .readRegN .. => "readregn"
  | .writeRaw .. => "writeraw"
  | .readRaw .. => "readraw"

/-- The serial of the device the request is for, if it is for one. -/
def serial? : Request → Option String
  | .deviceList => none
  | .reprogram serial | .readReg serial .. | .writeReg serial .. | .writeRegN serial ..
  | .readRegN serial .. | .writeRaw serial .. | .readRaw serial .. => some serial

/-- The request in short: its method, and its device between parentheses. -/
def describe (r : Request) : String :=
  match r.serial? with
  | some serial => r.method ++ "(" ++ serial ++ ")"
  | none => r.method

/-- The fields behind the method, in their order on the wire. -/
def arguments : Request → List Value
  | .deviceList => []
  | .reprogram serial => [.str serial]
  | .readReg serial addr port =>
    [.str serial, .ofNat64 addr.toUInt64, .ofNat64 port.toUInt64]
  | .writeReg serial addr port value =>
    [.str serial, .ofNat64 addr.toUInt64, .ofNat64 port.toUInt64, .ofNat64 value.toUInt64]
  | .writeRegN serial addr port data =>
    [.str serial, .ofNat64 addr.toUInt64, .ofNat64 port.toUInt64, .bin data]
  | .readRegN serial addr port count =>
    [.str serial, .ofNat64 addr.toUInt64, .ofNat64 port.toUInt64, .ofNat64 count.toUInt64]
  | .writeRaw serial data => [.str serial, .bin data]
  | .readRaw serial count => [.str serial, .ofNat64 count.toUInt64]

/-- The request as a value. -/
def toValue (r : Request) : Value :=
  .array (.str r.method :: r.arguments)

/-- The bytes of the request on the wire. -/
def encode (r : Request) : Bytes := r.toValue.encode

/-- Reads the fields of a request with a given method. Fields are checked in their order, and fields
behind the last one are not looked at. -/
def ofFields (method : String) (fields : List Value) : Except Fault Request :=
  match method with
  | "devicelist" => return .deviceList
  | "reprogram" => return .reprogram (← textField fields 1 "serial")
  | "readreg" =>
    return .readReg (← textField fields 1 "serial") (← uint8Field fields 2 "addr")
      (← uint8Field fields 3 "port")
  | "writereg" =>
    return .writeReg (← textField fields 1 "serial") (← uint8Field fields 2 "addr")
      (← uint8Field fields 3 "port") (← uint16Field fields 4 "value")
  | "writeregn" =>
    return .writeRegN (← textField fields 1 "serial") (← uint8Field fields 2 "addr")
      (← uint8Field fields 3 "port") (← bytesField fields 4 "data")
  | "readregn" =>
    return .readRegN (← textField fields 1 "serial") (← uint8Field fields 2 "addr")
      (← uint8Field fields 3 "port") (← uint32Field fields 4 "count")
  | "writeraw" =>
    return .writeRaw (← textField fields 1 "serial") (← bytesField fields 2 "data")
  | "readraw" =>
    return .readRaw (← textField fields 1 "serial") (← uint32Field fields 2 "count")
  | other => throw (.invalidCommand other)

/-- Reads a request as a server receives it. -/
def ofValue : Value → Except Fault Request
  | .array fields =>
    match fields.head?.bind Value.asText? with
    | some method => ofFields method fields
    | none => .error (.invalidFormat .noMethod)
  | other => .error (.invalidFormat (.requestNotAnArray other))

end Request

end BoardLink.Wire
