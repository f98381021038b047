import Spacecraft.Fault.DeviceError

/-!
# Power control

The requests that the mission makes to the power system, and the record of them.
-/

namespace Spacecraft

/-- One of the two burn circuits of the sail. -/
inductive BurnCircuit where
  | main
  | redundant
deriving DecidableEq, Inhabited, Repr

/-- Both circuits. -/
def BurnCircuit.all : List BurnCircuit := [.main, .redundant]

/-- The name of a circuit. -/
def BurnCircuit.name : BurnCircuit → String
  | main => "Main"
  | redundant => "Redundant"

/-- What a burn circuit can be switched to. -/
inductive BurnSwitch where
  | sail
deriving DecidableEq, Repr

/-- A camera with a supply of its own. -/
inductive Camera where
  | nadir
  | wing
deriving DecidableEq, Inhabited, Repr

/-- Both cameras. -/
def Camera.all : List Camera := [.nadir, .wing]

/-- The name of a camera. -/
def Camera.name : Camera → String
  | nadir => "Nadir"
  | wing => "Wing"

/-- A request to the power system. -/
inductive PowerEvent where
  | powerCycle
  | burnSwitch (circuit : BurnCircuit) (switch : BurnSwitch)
  | thermalKnife (circuit : BurnCircuit) (on : Bool)
  | primaryAntennaPower (on : Bool)
  | backupAntennaPower (on : Bool)
  | cameraPower (camera : Camera) (on : Bool)
deriving DecidableEq, Repr

/-- A way to make requests to the power system: what a request answers, and the system afterwards. -/
class PowerSystem (π : Type) where
  request : PowerEvent → π → Except DeviceError Unit × π

/-- The requests so far, latest first. -/
structure PowerLog where
  latest : List PowerEvent
deriving DecidableEq

namespace PowerLog

/-- No request yet. -/
def empty : PowerLog := ⟨[]⟩

/-- Note a request. -/
def record (event : PowerEvent) (log : PowerLog) : PowerLog := ⟨event :: log.latest⟩

/-- A log takes every request. -/
instance : PowerSystem PowerLog where
  request event log := (.ok (), log.record event)

/-- Note power cycles. -/
def recordCycles (n : Nat) (log : PowerLog) : PowerLog := ⟨List.replicate n .powerCycle ++ log.latest⟩

/-- The requests in the order in which they were made. -/
def events (log : PowerLog) : List PowerEvent := log.latest.reverse

/-- The number of power cycles asked for. -/
def cycles (log : PowerLog) : Nat := log.latest.countP (fun event => decide (event = .powerCycle))

end PowerLog

end Spacecraft
