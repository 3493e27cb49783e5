import BoardLink.Faout.Capability

/-!
# The capabilities at hand

Besides analog output boards there are two plain capabilities that fit any device: one that records
all register changes, and one that only carries a name of its own.
-/

namespace BoardLink

/-- A register change: address, port and new value. -/
abbrev Change := UInt8 × UInt8 × UInt16

/-- The state of any capability at hand. -/
inductive Known where
  | faout (t : Faout.Tracker)
  /-- All changes since the device appeared, the oldest first. -/
  | recorder (changes : List Change)
  /-- A name made from the device's serial. -/
  | echo (serial : String)
  deriving DecidableEq, Repr

namespace Known

/-- The name of a capability. -/
def name : Known → String
  | .faout _ => Faout.serialLead
  | .recorder _ => "recorder"
  | .echo serial => "echo:" ++ serial

/-- The state after a register change. -/
def registerChanged (k : Known) (addr port : UInt8) (value : UInt16) : Known :=
  match k with
  | .faout t => .faout (t.registerChanged addr port value)
  | .recorder changes => .recorder (changes ++ [(addr, port, value)])
  | .echo serial => .echo serial

instance : Capability Known where
  name := name
  registerChanged := registerChanged
  name_registerChanged k _ _ _ := by cases k <;> rfl

/-- The makers by name. -/
def maker? : String → Option (String → Known)
  | "faout" => some fun _ => .faout {}
  | "recorder" => some fun _ => .recorder []
  | "echo" => some .echo
  | _ => none

/-- The state of an analog output board, if the device is one. -/
def faout? : Known → Option Faout.Tracker
  | .faout t => some t
  | _ => none

/-- The recorded changes, if the capability records them. -/
def changes? : Known → Option (List Change)
  | .recorder changes => some changes
  | _ => none

/-- A recorder that has forgotten its changes; other capabilities are as they were. -/
def forgetChanges : Known → Known
  | .recorder _ => .recorder []
  | k => k

end Known

end BoardLink
