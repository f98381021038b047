import Spacecraft.Antenna.Bench
import Spacecraft.Antenna.Protocol

/-!
# The controllers of a satellite
-/

namespace Spacecraft

/-- Controllers on the bus and controllers on the test bench, of which only the ones or the others are in use. -/
structure AntennaHardware where
  bus : Bus
  bench : AntennaBench
  usesBus : Bool

namespace AntennaHardware

/-- Carry an operation through on the controllers in use. -/
def through {α : Type} (onBus : Bus → α × List Report × Bus) (onBench : AntennaBench → α × List Report × AntennaBench)
    (hardware : AntennaHardware) : α × List Report × AntennaHardware :=
  if hardware.usesBus then
    let (result, reports, bus) := onBus hardware.bus
    (result, reports, { hardware with bus })
  else
    let (result, reports, bench) := onBench hardware.bench
    (result, reports, { hardware with bench })

instance : AntennaDriver AntennaHardware where
  perform channel command := through (AntennaDriver.perform channel command) (AntennaDriver.perform channel command)
  status channel := through (AntennaDriver.status channel) (AntennaDriver.status channel)

end AntennaHardware

end Spacecraft
