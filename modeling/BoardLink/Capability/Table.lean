/-!
# Capabilities of devices

A capability is what a client knows about a kind of device beyond its registers. It is made once,
when its device appears, sees every register change of that device, and goes with it. Which
capability a device gets is decided by its serial: a `CapabilityTable` holds serial prefixes with
the makers of capabilities, and the first registered prefix that matches wins.
-/

namespace BoardLink

/-- What a type must offer to serve as capability state. -/
class Capability (κ : Type) where
  /-- The name that notifications show. -/
  name : κ → String
  /-- The state after a register of the device changed. -/
  registerChanged : κ → (addr port : UInt8) → (value : UInt16) → κ
  /-- A capability keeps its name. -/
  name_registerChanged (c : κ) (addr port : UInt8) (value : UInt16) :
    name (registerChanged c addr port value) = name c

/-- Serial prefixes and the makers they select, in order of registration. -/
structure CapabilityTable (κ : Type) where
  entries : List (String × (String → κ)) := []

namespace CapabilityTable

variable {κ : Type}

/-- Whether a serial begins with `lead`. -/
def matchesLead (lead serial : String) : Bool :=
  lead.toList.isPrefixOf serial.toList

/-- Associates a serial prefix with a maker. A prefix that is registered again gets the new maker
and keeps its place. -/
def register (t : CapabilityTable κ) (lead : String) (make : String → κ) : CapabilityTable κ :=
  if t.entries.any (·.1 = lead) then
    ⟨t.entries.map fun e => if e.1 = lead then (lead, make) else e⟩
  else ⟨t.entries ++ [(lead, make)]⟩

/-- The prefix and the maker that apply to a serial. -/
def resolve? (t : CapabilityTable κ) (serial : String) : Option (String × (String → κ)) :=
  t.entries.find? fun e => matchesLead e.1 serial

/-- The capability of a new device, if any prefix matches. -/
def instantiate? (t : CapabilityTable κ) (serial : String) : Option κ :=
  (t.resolve? serial).map fun e => e.2 serial

/-- The number of prefixes. -/
def size (t : CapabilityTable κ) : Nat := t.entries.length

/-- Whether no prefix is registered. -/
def isEmpty (t : CapabilityTable κ) : Bool := t.entries.isEmpty

end CapabilityTable

end BoardLink
