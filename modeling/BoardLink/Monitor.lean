import BoardLink.Faout.Operations
import BoardLink.Session.Handle

/-!
# The monitor

The monitor connects to a server, lists the attached devices with their kinds, and then prints a
line for every change that the server reports, until the connection ends. On request it also reads
the status of every analog output board while it lists them.

Its capabilities are those of analog output boards alone, so a device either is such a board or is
generic.
-/

namespace BoardLink

namespace Monitor

/-- The session of a monitor. -/
abbrev MonitorSession (τ : Type) := Session τ Faout.Tracker

/-- The capabilities that a monitor knows. -/
def capabilities : CapabilityTable Faout.Tracker :=
  CapabilityTable.register {} Faout.serialLead Faout.Tracker.make

/-- A status, as it is shown below the line of its device. -/
def statusLine (s : Faout.Status) : String := "    " ++ s.text

variable {τ : Type}

/-- What is shown for a notification: its line, and for a status change the status that its board is
known to have. -/
def describe (s : MonitorSession τ) (n : Notification) : String :=
  match n with
  | .registerChanged serial addr port _ =>
    if addr = Faout.registersAddr && port = Faout.statusPort then
      match (s.device? serial).bind (·.capability) |>.bind (·.lastStatus) with
      | some status => n.text ++ "\n" ++ statusLine status
      | none => n.text
    else n.text
  | n => n.text

/-- The line that lists a device. -/
def deviceLine (s : MonitorSession τ) (serial : String) : String :=
  let kind := ((s.device? serial).bind (·.capabilityName?)).getD "generic"
  serial ++ " [" ++ kind ++ "]"

/-- The lines of the notifications queued so far. -/
def queuedEvents (s : MonitorSession τ) : List String × MonitorSession τ :=
  let (notifications, s) := s.takeNotifications
  (notifications.map (describe s), s)

variable [Transport τ]

/-- Reads the status of a board. -/
def readStatus (serial : String) : SessionM τ Faout.Tracker Faout.Status :=
  Session.withDevice serial Faout.deviceStatus

/-- Lists one device. A status that cannot be read is left out. -/
def listDevice (status : Bool) (s : MonitorSession τ) (serial : String) :
    List String × MonitorSession τ :=
  let line := deviceLine s serial
  if status && ((s.device? serial).bind (·.capability)).isSome then
    match readStatus serial s with
    | (.ok word, s) => ([line, statusLine word], s)
    | (.error _, s) => ([line], s)
  else ([line], s)

/-- Lists devices one after the other. -/
def listDevices (status : Bool) (s : MonitorSession τ) :
    List String → List String × MonitorSession τ
  | [] => ([], s)
  | serial :: others =>
    let (lines, s) := listDevice status s serial
    let (more, s) := listDevices status s others
    (lines ++ more, s)

/-- Lists the devices that are attached now. -/
def printDevices (status : Bool) (s : MonitorSession τ) : List String × MonitorSession τ :=
  match s.devices with
  | [] => (["No devices attached"], s)
  | serials => listDevices status s serials

/-- What a monitor has printed, and the error that ended it; without one it is still running. -/
structure Report where
  lines : List String
  error : Option SessionError

/-- Polls for events and prints them, at most `polls` times. -/
def follow (s : MonitorSession τ) : (polls : Nat) → Report × MonitorSession τ
  | 0 => (⟨[], none⟩, s)
  | polls + 1 =>
    match (Session.pollEvents : SessionM τ Faout.Tracker (List Notification)) s with
    | (.error e, s) => (⟨[], some e⟩, s)
    | (.ok notifications, s) =>
      let (report, last) := follow s polls
      (⟨notifications.map (describe s) ++ report.lines, report.error⟩, last)

/-- Runs a monitor over a connection, for at most `polls` polls. The devices that are there on
connection are listed and not reported as added. -/
def run (transport : τ) (config : Config) (status : Bool) (polls : Nat) :
    Report × MonitorSession τ :=
  match Session.connect transport config none capabilities with
  | (.error e, s) => (⟨[], some e⟩, s)
  | (.ok _, s) =>
    let (_, s) := s.takeNotifications
    let (listed, s) := printDevices status s
    let (queued, s) := queuedEvents s
    let (report, s) := follow s polls
    (⟨listed ++ queued ++ report.lines, report.error⟩, s)

end Monitor

end BoardLink
