import BoardLink.Session.Exchange

/-!
# Operations on devices

Each operation is one exchange. It sends its request, and reads the result off the first field of
the answer. An answer without the shape that the request implies is an error, but not a fatal one:
the answer has been taken, and the next one belongs to the next request.
-/

namespace BoardLink

open BoardLink.MessagePack BoardLink.Wire

/-- The serials of a device list. -/
def Wire.Answer.serials (a : Answer) : Except SessionError (List String) :=
  match a.value? with
  | some (.array items) =>
    items.mapM fun item =>
      match item.asText? with
      | some serial => .ok serial
      | none => .error (.unexpectedPayload (.deviceSerial item))
  | other => .error (.unexpectedPayload (.deviceList other))

/-- Whether a device was loaded again. -/
def Wire.Answer.flag (a : Answer) : Except SessionError Bool :=
  match a.value?.bind Value.asFlag? with
  | some b => .ok b
  | none => .error (.unexpectedPayload (.reprogramResult a.value?))

/-- The word that a register holds. -/
def Wire.Answer.word (a : Answer) : Except SessionError UInt16 :=
  match a.value?.bind Value.asNat? with
  | some n =>
    if n < 0x10000 then .ok (UInt16.ofNat n)
    else .error (.unexpectedPayload (.registerValue a.value?))
  | none => .error (.unexpectedPayload (.registerValue a.value?))

/-- The byte block of an answer. -/
def Wire.Answer.block (a : Answer) : Except SessionError Bytes :=
  match a.value?.bind Value.asBytes? with
  | some bytes => .ok bytes
  | none => .error (.unexpectedPayload (.byteBlock a.value?))

/-- The words of a block that should hold `count` of them. -/
def wordsOfBlock (bytes : Bytes) (count : Nat) : Except SessionError (List UInt16) :=
  if bytes.length = 2 * count then .ok (bytesToWords bytes)
  else .error (.lengthMismatch (2 * count) bytes.length)

/-- The bytes of a block that should hold `count` of them. -/
def bytesOfBlock (bytes : Bytes) (count : Nat) : Except SessionError Bytes :=
  if bytes.length = count then .ok bytes else .error (.lengthMismatch count bytes.length)

/-- A count as it goes on the wire. -/
def wireCount (count : Nat) : Except SessionError UInt32 :=
  if count < 0x100000000 then .ok (UInt32.ofNat count)
  else .error (.invalidArgument (.countTooLarge count))

namespace Session

variable {τ κ : Type} [Transport τ] [Capability κ]

/-- Fetches the serials of all attached devices and makes the registry match them. -/
def getDeviceList : SessionM τ κ (List String) := do
  let answer ← call .deviceList
  let serials ← answer.serials
  modify fun s => s.adopt (s.registry.reconcile serials)
  return serials

/-- A new session whose registry holds the server's devices. Nothing is sent if the settings ask for
a timeout of zero. -/
def connect (transport : τ) (config : Config) (own : Option (CapabilityTable κ))
    (shared : CapabilityTable κ) : Except SessionError (List String) × Session τ κ :=
  let s := create transport config own shared
  match config.checkTimeouts with
  | .error fault => fail (.io fault) s
  | .ok () => getDeviceList s

/-- Loads the configuration into a device again, and tells whether that succeeded. -/
def reprogram (serial : String) : SessionM τ κ Bool := do
  (← call (.reprogram serial)).flag

/-- Reads a register. -/
def readReg (serial : String) (addr port : UInt8) : SessionM τ κ UInt16 := do
  (← call (.readReg serial addr port)).word

/-- Writes a register. -/
def writeReg (serial : String) (addr port : UInt8) (value : UInt16) : SessionM τ κ Unit := do
  let _ ← call (.writeReg serial addr port value)

/-- Reads `count` words from one register. -/
def readRegN (serial : String) (addr port : UInt8) (count : Nat) : SessionM τ κ (List UInt16) := do
  let wire ← wireCount count
  let answer ← call (.readRegN serial addr port wire)
  wordsOfBlock (← answer.block) count

/-- Writes words to one register. -/
def writeRegN (serial : String) (addr port : UInt8) (values : List UInt16) : SessionM τ κ Unit := do
  let _ ← call (.writeRegN serial addr port (wordsToBytes values))

/-- Writes bytes to a device's data pipe. -/
def writeRaw (serial : String) (data : Bytes) : SessionM τ κ Unit := do
  let _ ← call (.writeRaw serial data)

/-- Reads `count` bytes from a device's data pipe. -/
def readRaw (serial : String) (count : Nat) : SessionM τ κ Bytes := do
  let wire ← wireCount count
  let answer ← call (.readRaw serial wire)
  bytesOfBlock (← answer.block) count

end Session

end BoardLink
