import BoardLink.Session.Basic

/-!
# Options of the monitor

The monitor takes the host and the port of a server, a read timeout, and whether to read the status
of the analog output boards while it lists them. Options may stand anywhere between the two places.
-/

namespace BoardLink.Monitor

/-- The port that device servers listen on. -/
def defaultPort : UInt16 := 9002

/-- What the monitor is asked to do. -/
structure Options where
  host : String := "localhost"
  port : UInt16 := defaultPort
  /-- The read timeout in milliseconds. -/
  timeout : Nat := 5000
  /-- Whether to read status registers while listing. -/
  status : Bool := false
  deriving DecidableEq, Repr

namespace Options

/-- A number below `bound`. -/
def number (bound : Nat) (what word : String) : Except String Nat :=
  match word.toNat? with
  | some n => if n < bound then .ok n else .error (what ++ " " ++ word ++ " is too large")
  | none => .error (what ++ " " ++ word ++ " is not a number")

/-- Reads the words of a command line. `place` counts the words that were no options. -/
def parseFrom (o : Options) (place : Nat) : List String → Except String Options
  | [] => .ok o
  | "--status" :: rest => parseFrom { o with status := true } place rest
  | "-t" :: ms :: rest | "--timeout-ms" :: ms :: rest => do
    let timeout ← number 0x10000000000000000 "timeout" ms
    parseFrom { o with timeout } place rest
  | word :: rest =>
    match place with
    | 0 => parseFrom { o with host := word } 1 rest
    | 1 => do
      let port ← number 0x10000 "port" word
      parseFrom { o with port := UInt16.ofNat port } 2 rest
    | _ => .error ("unexpected argument " ++ word)

/-- Reads a command line. -/
def parse (words : List String) : Except String Options :=
  parseFrom {} 0 words

/-- The settings of the monitor's session. -/
def config (o : Options) : Config := { readTimeout := o.timeout }

end Options

end BoardLink.Monitor
