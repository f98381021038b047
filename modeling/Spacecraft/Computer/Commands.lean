import Spacecraft.Computer.Threads

/-!
# What the operator can ask of the computer
-/

namespace Spacecraft

namespace Computer

/-- Ask for an experiment. -/
def requestExperiment (code : UInt8) (c : Computer) : Bool × Computer :=
  let (accepted, experiments) := c.experiments.request code
  (accepted, { c with experiments })

/-- Cut the running experiment short. -/
def abortExperiment (c : Computer) : Computer := { c with experiments := c.experiments.abort }

/-- Change the number of Fibonacci terms; refused while an experiment runs. -/
def setFibonacciTerms (terms : UInt32) (c : Computer) : Bool × Computer :=
  if c.experimentThread.inRun then (false, c) else (true, { c with fibonacci := c.fibonacci.setTerms terms })

/-- Let the antenna plan run although the antennas are out, or no longer. -/
def setAntennaOverride (enable : Bool) (c : Computer) : Computer :=
  { c with deployment := c.deployment.setOverride enable }

/-- Let the antenna plan start over. -/
def restartDeployment (c : Computer) : Computer := { c with deployment := c.deployment.restart }

/-- Run the sail plan from its start. -/
def openSail (c : Computer) : Computer := { c with sail := c.sail.openSail }

/-- Put a policy in force and store it. -/
def setPolicy (device : Device) (policy : Policy) (c : Computer) : Computer :=
  let (_, reports, settings) :=
    c.settings.modify fun settings => { settings with policies := settings.policies.set device policy }
  { c with faults := c.faults.setPolicy device policy, settings }.absorb reports

/-- Hold devices back from escalating. -/
def setMask (masked : UInt16) (c : Computer) : Computer := { c with faults := c.faults.mask masked }

/-- Count failures or successes of a device. -/
def reportOutcomes (device : Device) (healthy : Bool) (n : Nat) (c : Computer) : Computer :=
  c.absorb (List.replicate n ⟨device, healthy⟩)

/-- Run no pass after the current one. -/
def suspend (c : Computer) : Computer := { c with control := c.control.suspend }

/-- Run passes again. -/
def resume (c : Computer) : Computer := { c with control := c.control.resume }

/-- Run one pass as soon as possible. -/
def requestSingle (c : Computer) : Computer := { c with control := c.control.requestSingle }

end Computer

end Spacecraft
