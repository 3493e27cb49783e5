import BoardLink.Capability.Known
import BoardLink.DeviceServer.Connection
import BoardLink.Faout.MemoryBoard
import BoardLink.Main
import BoardLink.Monitor
import BoardLink.Proofs.MessagePack.Reads
import BoardLink.Proofs.MessagePack.Spans
import BoardLink.Proofs.MessagePack.Stream
import BoardLink.Proofs.Wire.Pieces
import BoardLink.Transport.Loopback
import BoardLink.Transport.Replying
import BoardLink.Transport.Scripted
import BoardLink.Wire.Endpoint
import BoardLink.Wire.Inbox
import BoardLink.Proofs.MessagePack.Agreement
import BoardLink.Proofs.MessagePack.Headers
import BoardLink.Proofs.MessagePack.RoundTrip
import BoardLink.Proofs.Registry.Devices
import BoardLink.Proofs.Registry.Reconcile
import BoardLink.Proofs.Registry.Serials
import BoardLink.Proofs.Session.Absorb
import BoardLink.Proofs.Session.Calls
import BoardLink.Proofs.Session.DeviceList
import BoardLink.Proofs.Session.Scripted
import BoardLink.Proofs.Registry.Told
import BoardLink.Proofs.Text.ByteOrder
import BoardLink.Proofs.Session.Runs
import BoardLink.Proofs.Session.Steps
import BoardLink.Proofs.Session.Notifications
import BoardLink.Proofs.Session.Closing
import BoardLink.Proofs.Session.Correlation
import BoardLink.Proofs.Wire.RoundTrip
import BoardLink.Proofs.DeviceServer.Requests
import BoardLink.Proofs.DeviceServer.Serving
import BoardLink.Proofs.Transport.Line
import BoardLink.Proofs.Session.Exchanges
import BoardLink.Proofs.Session.Prescribed
import BoardLink.Proofs.Session.Served
import BoardLink.Proofs.MessagePack.SizeLimit
import BoardLink.Proofs.Session.Alike
import BoardLink.Proofs.Session.WholeRequests
import BoardLink.Proofs.Session.Feeding
import BoardLink.Proofs.Failures
import BoardLink.Proofs.Wire.Classification
import BoardLink.Proofs.Wire.Packets
import BoardLink.Proofs.Session.UnknownPackets
import BoardLink.Proofs.Session.InFlight
import BoardLink.Proofs.Session.Violations
import BoardLink.Proofs.Session.Queued
import BoardLink.Proofs.Session.ReadyHook
import BoardLink.Proofs.Session.Balances
import BoardLink.Proofs.Wire.ReadingOn
import BoardLink.Proofs.Monitor.Boards
import BoardLink.Proofs.Monitor.Turns
import BoardLink.Proofs.Monitor.StatusLines
import BoardLink.Proofs.DeviceServer.Transcript
import BoardLink.Proofs.Monitor.Tracking
import BoardLink.Proofs.Monitor.RegisterLines
import BoardLink.Proofs.Registry.Isolation
import BoardLink.Proofs.MessagePack.Views
import BoardLink.Proofs.Session.Adoption
import BoardLink.Proofs.Wire.Grammar
import BoardLink.Proofs.MessagePack.Refusals
import BoardLink.Proofs.MessagePack.LeastSize
import BoardLink.Proofs.Wire.Buffering
import BoardLink.Proofs.Session.WakeUps
import BoardLink.Proofs.Capability.History
import BoardLink.Proofs.Registry.Bindings
import BoardLink.Proofs.Faout.Exchanges
import BoardLink.Proofs.Faout.FirstFailure
import BoardLink.Proofs.Faout.SampleMemory
import BoardLink.Proofs.Faout.Cells
import BoardLink.Proofs.DeviceServer.Pipes
import BoardLink.Proofs.Monitor.Listing
import BoardLink.Proofs.Session.Blocks
import BoardLink.Proofs.MessagePack.Counters
