import Spacecraft.Fault.Counters

/-!
# Fault isolation

The counters together with the operator's mask.  An alarm of a device that is not masked asks for a power cycle of the
satellite.
-/

namespace Spacecraft

/-- Error counters and the mask of devices that do not escalate. -/
structure FaultIsolation where
  counters : Counters
  masked : UInt16
deriving DecidableEq

namespace FaultIsolation

/-- Fresh counters, nothing masked. -/
def fresh : FaultIsolation := ⟨.fresh, 0⟩

instance : Inhabited FaultIsolation := ⟨fresh⟩

/-- The mask holds a device back from escalating. -/
def holdsBack (masked : UInt16) (device : Device) : Bool := masked &&& device.maskBit != 0

/-- The number of power cycles that alarms ask for. -/
def powerCycles (masked : UInt16) (alarms : List Alarm) : Nat :=
  alarms.countP (fun alarm => !holdsBack masked alarm.device)

/-- Take in reports; the number is that of the power cycles asked for. -/
def reportAll (reports : List Report) (fdir : FaultIsolation) : Nat × FaultIsolation :=
  let (alarms, counters) := fdir.counters.reportAll reports
  (powerCycles fdir.masked alarms, { fdir with counters })

/-- Count failures of a device. -/
def failures (device : Device) (n : Nat) (fdir : FaultIsolation) : Nat × FaultIsolation :=
  fdir.reportAll (List.replicate n ⟨device, false⟩)

/-- Count successes of a device. -/
def successes (device : Device) (n : Nat) (fdir : FaultIsolation) : Nat × FaultIsolation :=
  fdir.reportAll (List.replicate n ⟨device, true⟩)

/-- Change the policy of one device. -/
def setPolicy (device : Device) (policy : Policy) (fdir : FaultIsolation) : FaultIsolation :=
  { fdir with counters := fdir.counters.setPolicy device policy }

/-- Put a table of policies in force. -/
def loadPolicies (policies : DeviceTable Policy) (fdir : FaultIsolation) : FaultIsolation :=
  { fdir with counters := fdir.counters.setPolicies policies }

/-- The policies in force. -/
def policies (fdir : FaultIsolation) : DeviceTable Policy := fdir.counters.policies

/-- Hold back the devices whose bits are set; counting goes on. -/
def mask (masked : UInt16) (fdir : FaultIsolation) : FaultIsolation := { fdir with masked }

/-- A single report asks for at most one power cycle: where it raises an alarm that the mask lets through. -/
theorem cycles_reportAll_one (r : Report) (fdir : FaultIsolation) :
    (fdir.reportAll [r]).1 =
      if r.healthy = false ∧ (fdir.counters.get r.device).alarmsAtFailure = true ∧
        holdsBack fdir.masked r.device = false then 1 else 0 := by
  have ha := Counters.alarm_report r fdir.counters
  obtain ⟨device, healthy⟩ := r
  simp only [reportAll, Counters.reportAll, ha, powerCycles]
  cases healthy <;> cases (fdir.counters.get device).alarmsAtFailure <;>
    cases hb : holdsBack fdir.masked device <;> simp [hb]

theorem get_reportAll_one (r : Report) (fdir : FaultIsolation) (device : Device) :
    (fdir.reportAll [r]).2.counters.get device =
      if device = r.device then (fdir.counters.get r.device).report r.healthy else fdir.counters.get device :=
  Counters.get_report r fdir.counters device

end FaultIsolation

end Spacecraft
