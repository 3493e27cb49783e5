import BoardLink.Faout.Capability
import BoardLink.RegisterAccess

/-!
# Operations of an analog output board

The board has a block of command and status registers, a memory for samples, six output channels,
and an interpolator for each of them:

| addr | port  | content                               |
|------|-------|---------------------------------------|
| 0    | 0     | command, one bit each, write only     |
| 0    | 1     | status                                |
| 0    | 2     | configuration bits                    |
| 0    | 3     | firmware version                      |
| 1    | 0..=3 | read and write pointers, low and high |
| 1    | 4     | sample memory                         |
| 2    | 0..6  | output value                          |
| 3    | 0..6  | interpolation target                  |
| 3    | 6..12 | interpolation steps                   |

Every operation stops at the first access that fails, with the error of that access.
-/

namespace BoardLink.Faout

/-- The number of output channels. -/
def channels : UInt8 := 6

/-- The highest address of the sample memory. -/
def sdramMaxAddr : Nat := 0x7fffff

/-- The port of the command register. -/
def commandPort : UInt8 := 0

/-- The port of the configuration register. -/
def configPort : UInt8 := 2

/-- The port of the firmware version. -/
def versionPort : UInt8 := 3

/-- The address of the sample memory. -/
def sdramAddr : UInt8 := 1

/-- The port that samples go through. -/
def sdramDataPort : UInt8 := 4

/-- The address of the output channels. -/
def dacAddr : UInt8 := 2

/-- The address of the interpolators. -/
def interpAddr : UInt8 := 3

/-- The configuration bit that selects the external clock. -/
def clockExternBit : UInt8 := 0

/-- What a board is told by its command register. -/
inductive Command where
  | reset
  | sequenceStart
  | sequenceStop
  | sequenceHold
  | sequenceArm
  | sdramRewind
  | sdramClear
  deriving DecidableEq, Repr

/-- The word that gives a command: one bit each. -/
def Command.word : Command → UInt16
  | .reset => 0x01
  | .sequenceStart => 0x02
  | .sequenceStop => 0x04
  | .sequenceHold => 0x08
  | .sequenceArm => 0x10
  | .sdramRewind => 0x20
  | .sdramClear => 0x40

/-- A word with bit `bit` set or cleared. -/
def withBit (word : UInt16) (bit : UInt8) (enabled : Bool) : UInt16 :=
  let mask : UInt16 := 1 <<< bit.toUInt16
  if enabled then word ||| mask else word &&& ~~~mask

/-- A 32 bit pointer from its two halves. -/
def pointer (high low : UInt16) : UInt32 :=
  high.toUInt32 <<< 16 ||| low.toUInt32

variable {σ : Type}

/-- Refuses a channel that the board does not have. -/
def checkChannel (index : UInt8) : Access σ Unit :=
  if index < channels then pure ()
  else throw (.invalidArgument (.channelOutOfRange index.toNat channels.toNat))

variable [RegisterAccess σ]

/-- The decoded status register. -/
def deviceStatus : Access σ Status := do
  return Status.ofWord (← readReg registersAddr statusPort)

/-- The firmware version. -/
def version : Access σ UInt16 := readReg registersAddr versionPort

/-- Whether a configuration bit is set. -/
def configBit (bit : UInt8) : Access σ Bool := do
  return bitSet (← readReg registersAddr configPort) bit.toUInt16

/-- Sets or clears a configuration bit and leaves the others as they are. -/
def setConfigBit (bit : UInt8) (enabled : Bool) : Access σ Unit := do
  let config ← readReg registersAddr configPort
  writeReg registersAddr configPort (withBit config bit enabled)

/-- Whether the external clock is selected. -/
def clockExtern : Access σ Bool := configBit clockExternBit

/-- Selects the external or the internal clock. -/
def setClockExtern (enabled : Bool) : Access σ Unit := setConfigBit clockExternBit enabled

/-- Gives a command. -/
def command (c : Command) : Access σ Unit := writeReg registersAddr commandPort c.word

/-- The read and the write pointer of the sample memory, in words. -/
def sdramPointers : Access σ (UInt32 × UInt32) := do
  let readHigh ← readReg sdramAddr 1
  let readLow ← readReg sdramAddr 0
  let writeHigh ← readReg sdramAddr 3
  let writeLow ← readReg sdramAddr 2
  return (pointer readHigh readLow, pointer writeHigh writeLow)

/-- Appends samples behind the write pointer, if there is room for all of them. -/
def sdramWrite (data : List UInt16) : Access σ Unit := do
  let (_, write) ← sdramPointers
  let free := sdramMaxAddr - write.toNat
  if free < data.length then throw (.invalidArgument (.noRoom data.length free))
  writeRegN sdramAddr sdramDataPort data

/-- Reads samples from the read pointer on: `count` of them, or all there are. -/
def sdramRead (count : Option Nat) : Access σ (List UInt16) := do
  let (read, write) ← sdramPointers
  let available := write.toNat - read.toNat
  let count := count.getD available
  if available < count then throw (.invalidArgument (.notEnough count available))
  readRegN sdramAddr sdramDataPort count

/-- Sets the value of a channel. -/
def writeDac (index : UInt8) (value : UInt16) : Access σ Unit := do
  checkChannel index
  writeReg dacAddr index value

/-- The value of a channel. -/
def readDac (index : UInt8) : Access σ UInt16 := do
  checkChannel index
  readReg dacAddr index

/-- Moves a channel to a value in a number of steps. The steps are written first, because writing
the target starts the move. -/
def writeInterp (index : UInt8) (value steps : UInt16) : Access σ Unit := do
  checkChannel index
  writeReg interpAddr (index + channels) steps
  writeReg interpAddr index value

/-- The target and the steps of a channel. -/
def readInterp (index : UInt8) : Access σ (UInt16 × UInt16) := do
  checkChannel index
  let steps ← readReg interpAddr (index + channels)
  let value ← readReg interpAddr index
  return (value, steps)

end BoardLink.Faout
