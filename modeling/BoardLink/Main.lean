import BoardLink.Monitor
import BoardLink.Monitor.Options
import BoardLink.Transport.Scripted

/-!
# Command line of the monitor

Reads what a server sent from standard input and monitors it as one connection: lists the devices,
prints the events, and ends with the error that ended the connection.
-/

open BoardLink

/-- All bytes of a stream. -/
partial def allBytes (stream : IO.FS.Stream) (start : ByteArray) : IO ByteArray := do
  let block ← stream.read 65536
  if block.isEmpty then return start else allBytes stream (start ++ block)

def main (words : List String) : IO UInt32 := do
  match Monitor.Options.parse words with
  | .error reason =>
    IO.eprintln ("error: " ++ reason)
    return 2
  | .ok options =>
    let received ← allBytes (← IO.getStdin) ByteArray.empty
    let server : Scripted := { arrivals := [.data received.toList] }
    -- each poll uses up patience, so this many see the end of the connection
    let polls := Transport.receivePatience server + 1
    let report := (Monitor.run server options.config options.status polls).1
    for line in report.lines do
      IO.println line
    match report.error with
    | some e =>
      IO.eprintln ("Error: " ++ e.inspect)
      return 1
    | none => return 0
