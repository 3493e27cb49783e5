import BoardLink.Capability.Table
import BoardLink.Text.Quoted

/-!
# Devices

A device is a serial with the capability that was chosen for it when it appeared, or with none.
-/

namespace BoardLink

/-- A device that is attached to the server. -/
structure Device (κ : Type) where
  serial : String
  capability : Option κ

namespace Device

variable {κ : Type} [Capability κ]

/-- The name of the device's capability, `none` for a plain device. -/
def capabilityName? (d : Device κ) : Option String :=
  d.capability.map Capability.name

/-- Tells the device's capability about a register change. -/
def registerChanged (d : Device κ) (addr port : UInt8) (value : UInt16) : Device κ :=
  { d with capability := d.capability.map (Capability.registerChanged · addr port value) }

/-- The long form of a device, with its capability. -/
def inspect (d : Device κ) : String :=
  let capability := match d.capabilityName? with
    | some name => "Some(" ++ quoted name ++ ")"
    | none => "None"
  "Device \x7b serial: " ++ quoted d.serial ++ ", capability: " ++ capability ++ " \x7d"

omit [Capability κ] in
/-- A device is written as its serial. -/
def text (d : Device κ) : String := d.serial

end Device

end BoardLink
