import Spacecraft.Antenna.Basic
import Spacecraft.Fault.Counters
import Spacecraft.Fault.DeviceError

/-!
# Ways to reach the controllers
-/

namespace Spacecraft

/-- A way to reach the two controllers: what an operation answers, the reports it makes, and the driver afterwards. -/
class AntennaDriver (δ : Type) where
  perform : Channel → AntennaCommand → δ → Except DeviceError Unit × List Report × δ
  status : Channel → δ → Except DeviceError AntennaStatus × List Report × δ

end Spacecraft
