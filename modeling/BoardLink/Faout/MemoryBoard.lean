import BoardLink.RegisterAccess
import BoardLink.RegisterMap

/-!
# A board in memory

A `MemoryBoard` is a register file that keeps a log of its accesses and can be told to fail at some
of them. It answers blocks of up to 64 words with a fixed pattern and stores nothing of a block that
is written.
-/

namespace BoardLink.Faout

/-- One access to a board. -/
inductive LogEntry where
  | read (addr port : UInt8)
  | write (addr port : UInt8) (value : UInt16)
  | readBlock (addr port : UInt8) (count : Nat)
  | writeBlock (addr port : UInt8) (values : List UInt16)
  deriving DecidableEq, Repr

/-- A register file with a log of accesses, and the registers at which accesses fail. -/
structure MemoryBoard where
  registers : RegisterMap UInt16 := .all 0
  failingReads : RegisterMap (Option String) := .all none
  failingWrites : RegisterMap (Option String) := .all none
  /-- All accesses, the latest first. -/
  log : List LogEntry := []

namespace MemoryBoard

/-- The largest block that can be read. -/
def blockLimit : Nat := 64

/-- The words of a block: each is its place plus address and port. -/
def pattern (addr port : UInt8) (count : Nat) : List UInt16 :=
  (List.range count).map fun i => UInt16.ofNat (i + addr.toNat + port.toNat)

/-- Adds an access to the log. -/
def record (entry : LogEntry) : Access MemoryBoard Unit :=
  modify fun b => { b with log := entry :: b.log }

/-- Fails if a message is listed. -/
def failIf (message : Option String) : Access MemoryBoard Unit :=
  match message with
  | some message => throw (.server (-1) message)
  | none => pure ()

instance : RegisterAccess MemoryBoard where
  readReg addr port := do
    record (.read addr port)
    let board ← get
    failIf (board.failingReads addr port)
    return board.registers addr port
  writeReg addr port value := do
    record (.write addr port value)
    failIf ((← get).failingWrites addr port)
    modify fun b => { b with registers := b.registers.set addr port value }
  readRegN addr port count := do
    record (.readBlock addr port count)
    failIf ((← get).failingReads addr port)
    if blockLimit < count then throw (.lengthMismatch (2 * count) 0)
    return pattern addr port count
  writeRegN addr port values := do
    record (.writeBlock addr port values)
    failIf ((← get).failingWrites addr port)

end MemoryBoard

end BoardLink.Faout
