import BoardLink.RegisterAccess
import BoardLink.Session.Operations

/-!
# Devices of a session

A `DeviceHandle` binds a serial to the session that reaches it. It offers register access, so the
operations of a kind of board run on it. A handle can only be had of an attached device; if the
device goes while the handle is in use, the server answers for it.
-/

namespace BoardLink

/-- A session, seen from one of its devices. -/
structure DeviceHandle (τ κ : Type) where
  session : Session τ κ
  serial : String

namespace DeviceHandle

variable {τ κ : Type}

/-- The device, `none` once it was removed. -/
def device? (h : DeviceHandle τ κ) : Option (Device κ) := h.session.device? h.serial

/-- Runs an operation of the session for this device. -/
def onSession {α : Type} (op : String → SessionM τ κ α) : Access (DeviceHandle τ κ) α :=
  fun h =>
    let (result, session) := op h.serial h.session
    (result, { h with session })

variable [Transport τ] [Capability κ]

/-- Loads the configuration into the device again. -/
def reprogram : Access (DeviceHandle τ κ) Bool := onSession Session.reprogram

/-- Writes bytes to the device's data pipe. -/
def writeRaw (data : Bytes) : Access (DeviceHandle τ κ) Unit :=
  onSession fun serial => Session.writeRaw serial data

/-- Reads bytes from the device's data pipe. -/
def readRaw (count : Nat) : Access (DeviceHandle τ κ) Bytes :=
  onSession fun serial => Session.readRaw serial count

instance : RegisterAccess (DeviceHandle τ κ) where
  readReg addr port := onSession fun serial => Session.readReg serial addr port
  writeReg addr port value := onSession fun serial => Session.writeReg serial addr port value
  readRegN addr port count := onSession fun serial => Session.readRegN serial addr port count
  writeRegN addr port values := onSession fun serial => Session.writeRegN serial addr port values

end DeviceHandle

namespace Session

variable {τ κ : Type}

/-- Runs operations on an attached device. -/
def withDevice {α : Type} (serial : String) (access : Access (DeviceHandle τ κ) α) :
    SessionM τ κ α :=
  fun s =>
    if s.registry.contains serial then
      let (result, handle) := access { session := s, serial }
      (result, handle.session)
    else (.error (.unknownDevice serial), s)

end Session

end BoardLink
