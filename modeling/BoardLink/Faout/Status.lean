/-!
# The status register of an analog output board

The lowest three bits of the status word are the state of the sequencer; the nine bits above them
are flags. `Status.text` writes the state and the names of the flags that are set.
-/

namespace BoardLink.Faout

/-- A decoded status word. -/
structure Status where
  /-- The sequencer's state, 0 to 7. -/
  state : UInt8
  running : Bool
  fifoFull : Bool
  fifoEmpty : Bool
  sdramEmpty : Bool
  sdramFull : Bool
  seqError : Bool
  commError : Bool
  clkExtValid : Bool
  clkExtSelected : Bool
  deriving DecidableEq, Repr

/-- Whether bit `n` of a word is set. -/
def bitSet (word : UInt16) (n : UInt16) : Bool :=
  word &&& (1 <<< n) != 0

namespace Status

/-- Decodes a status word. -/
def ofWord (word : UInt16) : Status where
  state := (word &&& 0x7).toUInt8
  running := bitSet word 3
  fifoFull := bitSet word 4
  fifoEmpty := bitSet word 5
  sdramEmpty := bitSet word 6
  sdramFull := bitSet word 7
  seqError := bitSet word 8
  commError := bitSet word 9
  clkExtValid := bitSet word 10
  clkExtSelected := bitSet word 11

/-- The flags with their names, from the lowest bit up. -/
def flags (s : Status) : List (Bool × String) :=
  [(s.running, "running"), (s.fifoFull, "fifo_full"), (s.fifoEmpty, "fifo_empty"),
    (s.sdramEmpty, "sdram_empty"), (s.sdramFull, "sdram_full"), (s.seqError, "seq_error"),
    (s.commError, "comm_error"), (s.clkExtValid, "clk_ext_valid"),
    (s.clkExtSelected, "clk_ext_selected")]

/-- The state, and the names of the flags that are set. -/
def text (s : Status) : String :=
  let names := s.flags.filterMap fun (set, name) => if set then some name else none
  names.foldl (fun line name => line ++ " " ++ name) ("state=" ++ toString s.state.toNat)

end Status

end BoardLink.Faout
