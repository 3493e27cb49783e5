import BoardLink.Device
import BoardLink.Notification
import BoardLink.Wire.Packet

/-!
# The registry of attached devices

The registry follows the server's device set. Each serial has at most one device; it is made when
the serial appears, in an event or in a device list, and dropped when the serial disappears. Every
change is queued as a notification until the application takes it.

Capabilities come from the registry's own table if it has one, else from the table that all
registries of the process share. The shared table is kept here as the registry last saw it; what is
registered later only matters for devices that appear later.
-/

namespace BoardLink

/-- The attached devices and what is to be told about them. -/
structure Registry (κ : Type) where
  /-- One device per serial, in order of appearance. -/
  devices : List (Device κ) := []
  /-- The registry's own table; `none` selects the shared one. -/
  own : Option (CapabilityTable κ) := none
  shared : CapabilityTable κ := {}
  /-- What the application has not taken yet, the oldest first. -/
  notifications : List Notification := []
  /-- The number of register changes that named no attached device. It is counted without the bound of
  a 64 bit counter, which no registry reaches: that takes `2 ^ 64` packets. -/
  dropped : Nat := 0

/-- Whether one serial comes before another or is the same: by code points. -/
def serialLe (a b : String) : Bool := a ≤ b

/-- Serials in ascending order. -/
def sortSerials (serials : List String) : List String :=
  serials.mergeSort serialLe

namespace Registry

variable {κ : Type}

/-- The device with a serial. -/
def get? (r : Registry κ) (serial : String) : Option (Device κ) :=
  r.devices.find? (·.serial = serial)

/-- Whether a device with this serial is attached. -/
def contains (r : Registry κ) (serial : String) : Bool :=
  r.devices.any (·.serial = serial)

/-- All serials, in ascending order. -/
def serials (r : Registry κ) : List String :=
  sortSerials (r.devices.map (·.serial))

/-- The number of devices. -/
def size (r : Registry κ) : Nat := r.devices.length

/-- Whether no device is attached. -/
def isEmpty (r : Registry κ) : Bool := r.devices.isEmpty

/-- The number of notifications that were not taken yet. -/
def pending (r : Registry κ) : Nat := r.notifications.length

/-- The table that new devices are looked up in. -/
def table (r : Registry κ) : CapabilityTable κ := r.own.getD r.shared

/-- Registers a capability in the table that all registries of the process share. -/
def registerShared (r : Registry κ) (lead : String) (make : String → κ) : Registry κ :=
  { r with shared := r.shared.register lead make }

/-- Queues a notification. -/
def notify (r : Registry κ) (n : Notification) : Registry κ :=
  { r with notifications := r.notifications ++ [n] }

/-- Drops the device with a serial, and tells whether there was one. -/
def remove (r : Registry κ) (serial : String) : Bool × Registry κ :=
  if r.contains serial then
    let remaining := r.devices.filter (·.serial ≠ serial)
    (true, { r with devices := remaining }.notify (.deviceRemoved serial))
  else (false, r)

/-- Drops devices one after the other. -/
def removeAll (r : Registry κ) (serials : List String) : Registry κ :=
  serials.foldl (fun r serial => (r.remove serial).2) r

/-- Drops all devices in ascending order of their serials. -/
def clear (r : Registry κ) : Registry κ :=
  r.removeAll r.serials

/-- Hands out the notifications queued so far. -/
def takeNotifications (r : Registry κ) : List Notification × Registry κ :=
  (r.notifications, { r with notifications := [] })

/-- Changes the device with a serial, if it is attached. -/
def modifyDevice (r : Registry κ) (serial : String) (f : Device κ → Device κ) : Registry κ :=
  { r with devices := r.devices.map fun d => if d.serial = serial then f d else d }

variable [Capability κ]

/-- Makes the device for a serial unless it is there already, and tells whether it was made. -/
def add (r : Registry κ) (serial : String) : Bool × Registry κ :=
  if r.contains serial then (false, r)
  else
    let device : Device κ := ⟨serial, r.table.instantiate? serial⟩
    (true, { r with devices := r.devices ++ [device] }.notify
      (.deviceAdded serial device.capabilityName?))

/-- Makes the devices of a list one after the other. -/
def addAll (r : Registry κ) (serials : List String) : Registry κ :=
  serials.foldl (fun r serial => (r.add serial).2) r

/-- Passes a register change on to its device, and tells whether there is one. A change for a serial
that is not attached is only counted. -/
def change (r : Registry κ) (serial : String) (addr port : UInt8) (value : UInt16) :
    Bool × Registry κ :=
  if r.contains serial then
    (true, (r.modifyDevice serial (·.registerChanged addr port value)).notify
      (.registerChanged serial addr port value))
  else (false, { r with dropped := r.dropped + 1 })

/-- Applies an event, and tells whether a notification was queued. -/
def apply (r : Registry κ) : Wire.Event → Bool × Registry κ
  | .added serial => r.add serial
  | .removed serial => r.remove serial
  | .changed serial addr port value => r.change serial addr port value

/-- Makes the registry hold exactly the given serials: missing devices are made in the order of the
list, then the others are dropped in ascending order. -/
def reconcile (r : Registry κ) (serials : List String) : Registry κ :=
  let grown := r.addAll serials
  let gone := (grown.devices.map (·.serial)).filter fun s => !serials.contains s
  grown.removeAll (sortSerials gone)

end Registry

end BoardLink
