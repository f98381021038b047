import Spacecraft.Antenna.Driver
import Spacecraft.Config.Mission
import Spacecraft.Settings.Store
import Spacecraft.Snapshot

/-!
# Releasing the antennas

A fixed plan walks over the primary controller and then over the backup: reset, arm, release all in sequence, release
each antenna whatever its switch says, disarm.  A pass executes at most one step, and the plan goes on whatever the
controller answers; what failed on the primary is tried again on the backup.
-/

namespace Spacecraft

/-- A step of the plan on one controller. -/
inductive DeploymentStep where
  | reset
  | arm
  | auto
  | manual (antenna : Antenna)
  | disarm
deriving DecidableEq, Repr

/-- When antennas may be released and how long a release may burn. -/
structure DeploymentLimits where
  threshold : Duration
  stepTimeout : Duration
  autoTimeout : Duration
deriving DecidableEq

/-- How far the release of the antennas has come. -/
structure Deployment where
  /-- The number of steps of the plan that were executed. -/
  step : Nat
  /-- A burn circuit was on at the last reading. -/
  inProgress : Bool
  /-- The operator wants the plan to run although the antennas are out. -/
  overridden : Bool
  lastStatus : AntennaStatus
  /-- The antennas that were ever reported out. -/
  seen : AntennaFlags
deriving DecidableEq

/-- The limits in a configuration. -/
def DeploymentLimits.ofConfig (config : MissionConfig) : DeploymentLimits :=
  ⟨config.antennaThreshold, config.antennaStepTimeout, config.antennaAutoTimeout⟩

/-- The command that a step sends. -/
def DeploymentStep.command (limits : DeploymentLimits) : DeploymentStep → AntennaCommand
  | .reset => .reset
  | .arm => .arm
  | .auto => .startAuto limits.autoTimeout
  | .manual antenna => .deploy antenna limits.stepTimeout true
  | .disarm => .disarm

namespace Deployment

/-- Nothing released, nothing known. -/
def initial : Deployment := ⟨0, false, false, .initial, .none⟩

instance : Inhabited Deployment := ⟨initial⟩

/-- The name of the update. -/
def updateName : String := "Antenna deployment status"

/-- The name of the action. -/
def actionName : String := "Deploy antennas"

/-- The steps on one controller. -/
def channelPlan (channel : Channel) : List (Channel × DeploymentStep) :=
  [.reset, .arm, .auto, .manual .antenna1, .manual .antenna2, .manual .antenna3, .manual .antenna4, .disarm].map
    fun step => (channel, step)

/-- The whole plan. -/
def plan : List (Channel × DeploymentStep) := channelPlan .primary ++ channelPlan .backup

/-- The step that comes next. -/
def pending? (task : Deployment) : Option (Channel × DeploymentStep) := plan[task.step]?

/-- The plan is finished. -/
def finished (task : Deployment) : Bool := decide (plan.length ≤ task.step)

/-- The controller whose status is asked for, if any. -/
def queried? (task : Deployment) : Option Channel := task.pending?.map Prod.fst

/-- Let the plan run again although the antennas are out, or no longer. -/
def setOverride (enable : Bool) (task : Deployment) : Deployment :=
  { task with overridden := enable, step := if enable then 0 else task.step }

/-- Let the plan start over. -/
def restart (task : Deployment) : Deployment := { task with step := 0 }

/-- Take in the answer to a status query; a failed query teaches nothing. -/
def observe (reading : Except DeviceError AntennaStatus) (task : Deployment) : UpdateResult × Deployment :=
  match reading with
  | .ok status =>
    (.ok, { task with
      lastStatus := status
      inProgress := status.active.any
      seen := task.seen.union status.deployed })
  | .error _ => (.warning, task)

/-- Ask for the status of the pending controller and take in the answer. -/
def refresh {δ : Type} [AntennaDriver δ] (driver : δ) (task : Deployment) :
    UpdateResult × List Report × δ × Deployment :=
  match task.queried? with
  | none => (.ok, [], driver, task)
  | some channel =>
    let (reading, reports, driver) := AntennaDriver.status channel driver
    let (result, task) := task.observe reading
    (result, reports, driver, task)

/-- Fill in the antenna part of the snapshot. -/
def publish (task : Deployment) (snapshot : Snapshot) : Snapshot :=
  { snapshot with antennas := task.seen, antennasDeployed := task.seen.all && !task.overridden }

/-- The settings do not know yet of an antenna that was seen out. -/
def hasNews (task : Deployment) (settings : Settings) : Bool :=
  settings.antennaMask &&& task.seen.toMask != task.seen.toMask

/-- Store in the settings which antennas were seen out. -/
def remember (task : Deployment) (store : SettingsStore) : List Report × SettingsStore :=
  if task.hasNews store.current then
    (store.modify fun settings => { settings with antennaMask := settings.antennaMask ||| task.seen.toMask }).2
  else ([], store)

/-- A step may be executed. -/
def condition (limits : DeploymentLimits) (snapshot : Snapshot) (task : Deployment) : Bool :=
  decide (limits.threshold ≤ snapshot.time) &&
    (task.overridden || !snapshot.antennasDeployed) && !task.finished && !task.inProgress

/-- Go on to the next step; at the end of the plan the override is dropped. -/
def advance (task : Deployment) : Deployment :=
  let next := { task with step := task.step + 1 }
  if next.finished then { next with overridden := false } else next

/-- Send the command of the pending step and go on, whatever the answer. -/
def execute {δ : Type} [AntennaDriver δ] (limits : DeploymentLimits) (driver : δ) (task : Deployment) :
    List Report × δ × Deployment :=
  match task.pending? with
  | none => ([], driver, task)
  | some (channel, step) =>
    let (_, reports, driver) := AntennaDriver.perform channel (step.command limits) driver
    (reports, driver, task.advance)

/-! ### Steps of the plan -/

theorem pending?_eq_none_iff {task : Deployment} : task.pending? = none ↔ task.finished = true := by
  rw [pending?, List.getElem?_eq_none_iff, finished, decide_eq_true_iff]

@[simp]
theorem step_observe (reading : Except DeviceError AntennaStatus) (task : Deployment) :
    (task.observe reading).2.step = task.step := by
  cases reading <;> rfl

@[simp]
theorem overridden_observe (reading : Except DeviceError AntennaStatus) (task : Deployment) :
    (task.observe reading).2.overridden = task.overridden := by
  cases reading <;> rfl

@[simp]
theorem step_advance (task : Deployment) : task.advance.step = task.step + 1 := by
  rw [advance]
  split <;> rfl

/-- A step may be executed when it is time, the antennas are not all out or the operator insists, the plan is not
finished and no burn circuit is on. -/
theorem condition_publish_iff {limits : DeploymentLimits} {snapshot : Snapshot} {task : Deployment} :
    task.condition limits (task.publish snapshot) = true ↔
      limits.threshold ≤ snapshot.time ∧ (task.overridden = true ∨ task.seen.all = false) ∧
        task.finished = false ∧ task.inProgress = false := by
  rw [condition, publish]
  cases task.overridden <;> cases task.seen.all <;> simp [and_assoc]

end Deployment

end Spacecraft
