import BoardLink.Text.Quoted

/-!
# Notifications

A notification tells the application about one change of the device set or of a register.
-/

namespace BoardLink

/-- A change that the application is told about. -/
inductive Notification where
  /-- A device appeared, with the name of its capability if it has one. -/
  | deviceAdded (serial : String) (capability : Option String)
  | deviceRemoved (serial : String)
  | registerChanged (serial : String) (addr port : UInt8) (value : UInt16)
  deriving DecidableEq, Repr

namespace Notification

/-- The device that a notification is about. -/
def serial : Notification → String
  | .deviceAdded serial _ | .deviceRemoved serial | .registerChanged serial .. => serial

/-- A word in hexadecimal, with four digits. -/
def hexWord (w : UInt16) : String :=
  let digits := hexDigits w.toNat
  "".pushn '0' (4 - digits.length) ++ digits

/-- The line that shows a notification. -/
def text : Notification → String
  | .deviceAdded serial (some capability) => "Device added: " ++ serial ++ " (" ++ capability ++ ")"
  | .deviceAdded serial none => "Device added: " ++ serial
  | .deviceRemoved serial => "Device removed: " ++ serial
  | .registerChanged serial addr port value =>
    "Register changed: " ++ serial ++ " addr=" ++ toString addr.toNat ++ " port="
      ++ toString port.toNat ++ " value=0x" ++ hexWord value

end Notification

end BoardLink
