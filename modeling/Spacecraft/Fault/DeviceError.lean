/-!
# Why a device operation failed
-/

namespace Spacecraft

/-- The reason a driver gives for a failed operation. -/
inductive DeviceError where
  | io
  | timeout
  /-- The reading lies outside what the device can measure, or the address outside its memory. -/
  | outOfRange
  | protocol
deriving DecidableEq, Inhabited, Repr

/-- All reasons. -/
def DeviceError.all : List DeviceError := [.io, .timeout, .outOfRange, .protocol]

/-- The short name of an error. -/
def DeviceError.kind : DeviceError → String
  | .io => "Io"
  | .timeout => "Timeout"
  | .outOfRange => "OutOfRange"
  | .protocol => "Protocol"

/-- The words in which an error is reported. -/
def DeviceError.message : DeviceError → String
  | .io => "I/O error"
  | .timeout => "operation timed out"
  | .outOfRange => "device reading out of range"
  | .protocol => "unexpected device response"

end Spacecraft
