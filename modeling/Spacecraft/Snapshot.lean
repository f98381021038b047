import Spacecraft.Antenna.Basic
import Spacecraft.Attitude
import Spacecraft.Settings.Record

/-!
# The snapshot of a pass

Each pass starts from an empty snapshot; updates fill in their parts, and what an update cannot learn keeps its initial
value.
-/

namespace Spacecraft

/-- What a mission pass knows about the satellite. -/
structure Snapshot where
  time : Duration
  /-- All antennas are out and no operator override is in force. -/
  antennasDeployed : Bool
  antennas : AntennaFlags
  sailOpened : Bool
  sailAttempts : UInt8
  attitude : AttitudeMode
  settings : Settings
deriving DecidableEq

namespace Snapshot

/-- The snapshot at the start of a pass. -/
def initial : Snapshot := ⟨.zero, false, .none, false, 0, .disabled, .initial⟩

instance : Inhabited Snapshot := ⟨initial⟩

/-- Fill in the settings. -/
def withSettings (settings : Settings) (snapshot : Snapshot) : Snapshot := { snapshot with settings }

/-- Fill in the attitude mode. -/
def withAttitude (attitude : AttitudeMode) (snapshot : Snapshot) : Snapshot := { snapshot with attitude }

end Snapshot

/-- What an update says about its part of the snapshot. -/
inductive UpdateResult where
  | ok
  /-- The part could not be refreshed. -/
  | warning
deriving DecidableEq, Repr

end Spacecraft
