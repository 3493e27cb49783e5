import BoardLink.RegisterMap
import BoardLink.Wire.Packet
import BoardLink.Wire.Request

/-!
# A device server

A `DeviceServer` answers requests from a model of its boards. A board has registers, a byte pipe per
register that block writes fill and block reads empty, and one raw pipe. What happens besides can be
scheduled in front of the answer to any request: a packet, bytes that are no packet, or the end of
the connection. Requests are counted from zero.
-/

namespace BoardLink

open BoardLink.MessagePack BoardLink.Wire

/-- The model of one board. -/
structure Board where
  registers : RegisterMap UInt16 := .all 0
  /-- Bytes written in blocks and not read yet. -/
  pipes : RegisterMap Bytes := .all []
  /-- Bytes written to the data pipe and not read yet. -/
  raw : Bytes := []
  /-- Registers whose writes are refused, with the message of the refusal. -/
  refused : RegisterMap (Option String) := .all none

/-- What can happen in front of an answer. -/
inductive Action where
  | send (p : Packet)
  | garbage (bytes : Bytes)
  /-- The connection ends instead of the answer. -/
  | close

/-- Boards by serial, and what is scheduled. -/
structure DeviceServer where
  /-- The attached boards, by ascending serial. -/
  boards : List (String × Board) := []
  /-- Actions with the request they come in front of, in their order. -/
  schedule : List (Nat × Action) := []

/-- Puts a board into its place in ascending order of serials, instead of one with the same
serial. -/
def putBoard (serial : String) (b : Board) : List (String × Board) → List (String × Board)
  | [] => [(serial, b)]
  | (s, old) :: rest =>
    if serial = s then (serial, b) :: rest
    else if serial < s then (serial, b) :: (s, old) :: rest
    else (s, old) :: putBoard serial b rest

namespace DeviceServer

/-- The board with a serial. -/
def board? (s : DeviceServer) (serial : String) : Option Board :=
  s.boards.lookup serial

/-- Puts a board into the server. -/
def put (s : DeviceServer) (serial : String) (b : Board) : DeviceServer :=
  { s with boards := putBoard serial b s.boards }

/-- Attaches a board, unless it is attached already. -/
def attach (s : DeviceServer) (serial : String) : DeviceServer :=
  if (s.board? serial).isSome then s else s.put serial {}

/-- Takes a board away. What it held is gone. -/
def detach (s : DeviceServer) (serial : String) : DeviceServer :=
  { s with boards := s.boards.filter (·.1 ≠ serial) }

/-- Changes a board, which is attached first if need be. -/
def modifyBoard (s : DeviceServer) (serial : String) (f : Board → Board) : DeviceServer :=
  s.put serial (f ((s.board? serial).getD {}))

/-- Sets a register. -/
def setRegister (s : DeviceServer) (serial : String) (addr port : UInt8) (value : UInt16) :
    DeviceServer :=
  s.modifyBoard serial fun b => { b with registers := b.registers.set addr port value }

/-- Refuses writes to a register from now on. -/
def refuseWrites (s : DeviceServer) (serial : String) (addr port : UInt8) (message : String) :
    DeviceServer :=
  s.modifyBoard serial fun b => { b with refused := b.refused.set addr port (some message) }

/-- Schedules an action in front of the answer to a request. -/
def beforeAnswer (s : DeviceServer) (index : Nat) (action : Action) : DeviceServer :=
  { s with schedule := s.schedule ++ [(index, action)] }

/-- What is scheduled in front of the answer to a request. -/
def actionsAt (s : DeviceServer) (index : Nat) : List Action :=
  s.schedule.filterMap fun e => if e.1 = index then some e.2 else none

/-- Keeps the boards in step with an event that the server sends. -/
def follow (s : DeviceServer) : Packet → DeviceServer
  | .event (.added serial) => s.attach serial
  | .event (.removed serial) => s.detach serial
  | _ => s

end DeviceServer

/-- What a board does with a request, and its answer. -/
def Board.answer (b : Board) : Request → Answer × Board
  | .deviceList => (.failure "Unknown device", b)
  | .reprogram _ => (.success (.bool true), b)
  | .readReg _ addr port => (.success (.ofNat64 (b.registers addr port).toUInt64), b)
  | .writeReg _ addr port value =>
    match b.refused addr port with
    | some message => (.failure message, b)
    | none => (.success .nil, { b with registers := b.registers.set addr port value })
  | .writeRegN _ addr port data =>
    (.success .nil, { b with pipes := b.pipes.set addr port (b.pipes addr port ++ data) })
  | .readRegN _ addr port count =>
    let pipe := b.pipes addr port
    let n := 2 * count.toNat
    (.success (.bin (pipe.take n)), { b with pipes := b.pipes.set addr port (pipe.drop n) })
  | .writeRaw _ data => (.success .nil, { b with raw := b.raw ++ data })
  | .readRaw _ count =>
    let n := count.toNat
    (.success (.bin (b.raw.take n)), { b with raw := b.raw.drop n })

/-- What the server does with a request, and its answer. -/
def DeviceServer.answer (s : DeviceServer) (r : Request) : Answer × DeviceServer :=
  match r.serial? with
  | none => (.success (.array (s.boards.map fun e => .str e.1)), s)
  | some serial =>
    match s.board? serial with
    | none => (.failure "Unknown device", s)
    | some b =>
      let (answer, b) := b.answer r
      (answer, s.put serial b)

end BoardLink
