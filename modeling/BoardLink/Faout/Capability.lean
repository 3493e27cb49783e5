import BoardLink.Capability.Table
import BoardLink.Faout.Status

/-!
# Capability of an analog output board

Boards whose serials begin with `FAOUT` report their status register as it changes. The capability
keeps the last report.
-/

namespace BoardLink.Faout

/-- What serials of these boards begin with, which is also the capability's name. -/
def serialLead : String := "FAOUT"

/-- The address of the register block. -/
def registersAddr : UInt8 := 0

/-- The port of the status register. -/
def statusPort : UInt8 := 1

/-- The status a board last reported, `none` before its first report. -/
structure Tracker where
  lastStatus : Option Status := none
  deriving DecidableEq, Repr

/-- The tracker of a board that appeared just now. -/
def Tracker.make (_ : String) : Tracker := {}

/-- Takes over a register change if it is one of the status register. -/
def Tracker.registerChanged (t : Tracker) (addr port : UInt8) (value : UInt16) : Tracker :=
  if addr = registersAddr && port = statusPort then ⟨some (Status.ofWord value)⟩ else t

instance : Capability Tracker where
  name _ := serialLead
  registerChanged := Tracker.registerChanged
  name_registerChanged _ _ _ _ := rfl

end BoardLink.Faout
