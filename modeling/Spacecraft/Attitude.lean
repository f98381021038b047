/-!
# Attitude control
-/

namespace Spacecraft

/-- What the attitude control is doing. -/
inductive AttitudeMode where
  | detumbling
  | sunPointing
  | disabled
  | experimental
deriving DecidableEq, Inhabited, Repr

/-- All modes. -/
def AttitudeMode.all : List AttitudeMode := [.detumbling, .sunPointing, .disabled, .experimental]

/-- The name of a mode. -/
def AttitudeMode.name : AttitudeMode → String
  | .detumbling => "Detumbling"
  | .sunPointing => "SunPointing"
  | .disabled => "Disabled"
  | .experimental => "Experimental"

/-- The number of a mode in telemetry. -/
def AttitudeMode.code : AttitudeMode → UInt8
  | .detumbling => 0
  | .sunPointing => 1
  | .disabled => 2
  | .experimental => 3

end Spacecraft
