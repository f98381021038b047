import Spacecraft.Antenna.Deployment
import Spacecraft.Antenna.Hardware
import Spacecraft.Clock.Drift
import Spacecraft.Experiment.Fibonacci
import Spacecraft.Fault.Isolation
import Spacecraft.Metrics.Registry
import Spacecraft.Mission.Control
import Spacecraft.Mission.Pass
import Spacecraft.Sail
import Spacecraft.Storage.Files
import Spacecraft.Telemetry.Archive

/-!
# The onboard computer

The computer holds the hardware it runs on and the state of all tasks.  A boot reads the settings, counts itself, puts
the stored policies in force and recovers the mission time.
-/

namespace Spacecraft

/-- What a computer runs on, and what outlives it. -/
structure Hardware where
  files : Files
  power : PowerLog
  antennas : AntennaHardware
  chips : ChipBank
  /-- What the external clock answers. -/
  externalClock : Except DeviceError Duration
  attitude : AttitudeMode

/-- What experiments work on. -/
structure ExperimentBay where
  fibonacci : Fibonacci
  files : Files
  metrics : Metrics

/-- The onboard computer. -/
structure Computer where
  config : MissionConfig
  files : Files
  power : PowerLog
  antennas : AntennaHardware
  externalClock : Except DeviceError Duration
  attitude : AttitudeMode
  settings : SettingsStore
  bootIndex : UInt32
  faults : FaultIsolation
  clock : Clock
  drift : DriftCorrection
  deployment : Deployment
  sail : SailTask
  telemetry : TelemetryTask
  fibonacci : Fibonacci
  experiments : ExperimentController
  experimentThread : ExperimentThread ExperimentBay
  control : LoopControl
  missionThread : MissionThread
  metrics : Metrics

namespace Computer

/-- What the computer runs on. -/
def hardware (c : Computer) : Hardware :=
  ⟨c.files, c.power, c.antennas, c.settings.bank, c.externalClock, c.attitude⟩

/-- Count the outcomes of transactions; alarms go to the power system as power cycles. -/
def absorb (reports : List Report) (c : Computer) : Computer :=
  let (cycles, faults) := c.faults.reportAll reports
  { c with faults, power := c.power.recordCycles cycles }

/-- Count a boot in settings that were just loaded. -/
def bootSettings (chips : ChipBank) : SettingsStore × List Report :=
  let (store, loading) := SettingsStore.load chips
  let (counting, store) := store.registerBoot
  (store, loading ++ counting)

/-- Start a computer. -/
def boot (hardware : Hardware) (config : MissionConfig) : Computer :=
  let (settings, reports) := bootSettings hardware.chips
  let (cycles, faults) := FaultIsolation.fresh.reportAll reports
  { config
    files := hardware.files
    power := hardware.power.recordCycles cycles
    antennas := hardware.antennas
    externalClock := hardware.externalClock
    attitude := hardware.attitude
    settings
    bootIndex := settings.current.bootIndex
    faults := faults.loadPolicies settings.current.policies
    clock := Clock.boot config hardware.files
    drift := .fresh config
    deployment := .initial
    sail := .initial
    telemetry := .fresh config
    fibonacci := .fresh config.fibonacciTerms
    experiments := .initial
    experimentThread := .unborn
    control := .initial
    missionThread := .stopped
    metrics := .initial }

/-! ### The clock -/

/-- Carry out a change of the clock: announce the time to the metrics and save it, as far as either is due. -/
def carryOut (change : Clock.Change) (c : Computer) : Computer :=
  let metrics := match change.announcement? with
    | some point => (c.metrics.setMissionTime point.toDuration).observeCounters c.faults.counters.values
    | none => c.metrics
  { c with metrics, files := change.save c.files }

/-- Let time pass. -/
def advance (delta : Duration) (c : Computer) : Except Duration.Overflow Unit × Computer :=
  match c.clock.advance delta with
  | (.error e, clock) => (.error e, { c with clock })
  | (.ok change, clock) => (.ok (), { c with clock }.carryOut change)

/-- Jump to a point of time; refused where that lies in the past. -/
def setTime (point : TimePoint) (c : Computer) : Except Duration.Overflow Bool × Computer :=
  match c.clock.set point with
  | (.error e, clock) => (.error e, { c with clock })
  | (.ok none, clock) => (.ok false, { c with clock })
  | (.ok (some change), clock) => (.ok true, { c with clock }.carryOut change)

instance : SettableClock Computer where
  now? c := some c.clock.current
  set := setTime

/-! ### Updates -/

/-- How an update that does not panic ends. -/
def outcome : UpdateResult → UpdateOutcome
  | .ok => .ok
  | .warning => .warning

/-- Fill in the time. -/
def updateTime : UpdateHook Computer Snapshot where
  name := DriftCorrection.updateName
  run snapshot c :=
    let (result, snapshot) := DriftCorrection.update c snapshot
    (outcome result, snapshot, c)

/-- The name of the update of the settings. -/
def settingsUpdateName : String := "Persistent state"

/-- The name of the update of the attitude mode. -/
def attitudeUpdateName : String := "ADCS mode"

/-- Fill in the settings. -/
def updateSettings : UpdateHook Computer Snapshot where
  name := settingsUpdateName
  run snapshot c := (.ok, snapshot.withSettings c.settings.current, c)

/-- Ask the pending controller for its status, fill in the antennas and store what is new. -/
def updateAntennas : UpdateHook Computer Snapshot where
  name := Deployment.updateName
  run snapshot c :=
    let (result, reports, antennas, deployment) := c.deployment.refresh c.antennas
    let c := { c with antennas, deployment }.absorb reports
    let (reports, settings) := deployment.remember c.settings
    (outcome result, deployment.publish snapshot, { c with settings }.absorb reports)

/-- Fill in the sail. -/
def updateSail : UpdateHook Computer Snapshot where
  name := SailTask.updateName
  run snapshot c := (.ok, c.sail.publish c.settings.current snapshot, c)

/-- Fill in the attitude mode. -/
def updateAttitude : UpdateHook Computer Snapshot where
  name := attitudeUpdateName
  run snapshot c := (.ok, snapshot.withAttitude c.attitude, c)

/-! ### Actions -/

/-- Correct the clock; a sum out of range makes the action panic. -/
def correctTime : ActionHook Computer Snapshot where
  name := DriftCorrection.actionName
  condition snapshot c := .ofBool (c.drift.condition snapshot)
  execute snapshot c :=
    let (result, c, drift) := c.drift.execute c.externalClock snapshot c
    (if result.toBool then .done else .panicked, { c with drift })

/-- Execute a step of the antenna plan. -/
def deployAntennas : ActionHook Computer Snapshot where
  name := Deployment.actionName
  condition snapshot c := .ofBool (c.deployment.condition (.ofConfig c.config) snapshot)
  execute _ c :=
    let (reports, antennas, deployment) := c.deployment.execute (.ofConfig c.config) c.antennas
    (.done, { c with antennas, deployment }.absorb reports)

/-- Note a request to the power system. -/
def requestPower (event : Option PowerEvent) (c : Computer) : Computer :=
  match event with
  | some event => { c with power := c.power.record event }
  | none => c

/-- Execute a step of the sail plan. -/
def openSailStep : ActionHook Computer Snapshot where
  name := SailTask.actionName
  condition snapshot c := .ofBool (c.sail.condition c.config.sailThreshold snapshot)
  execute _ c :=
    let (event, reports, settings, sail) := c.sail.execute c.settings
    (.done, ({ c with settings, sail }.requestPower event).absorb reports)

/-- Hand a request to the experiment thread. -/
def startExperiment : ActionHook Computer Snapshot where
  name := ExperimentController.startActionName
  condition _ c := .ofBool c.experiments.startCondition
  execute _ c := (.done, { c with experiments := c.experiments.start })

/-- Let a waiting experiment go on. -/
def kickExperiment : ActionHook Computer Snapshot where
  name := ExperimentController.kickActionName
  condition _ c := .ofBool c.experiments.kickCondition
  execute _ c := (.done, { c with experiments := c.experiments.kick })

/-- Save a telemetry record. -/
def saveTelemetry : ActionHook Computer Snapshot where
  name := TelemetryTask.actionName
  condition snapshot c := .ofBool (c.telemetry.condition snapshot)
  execute snapshot c :=
    let (files, telemetry) := c.telemetry.execute snapshot c.faults.counters.values c.files
    (.done, { c with files, telemetry })

/-! ### Passes -/

/-- The hooks of the computer in their order. -/
def missionLoop : MissionLoop Computer Snapshot where
  initial := .initial
  updates := [updateTime, updateSettings, updateAntennas, updateSail, updateAttitude]
  actions := [correctTime, deployAntennas, openSailStep, startExperiment, kickExperiment, saveTelemetry]
  notify c := { c with experiments := c.experiments.notifyPass }
  record summary c := { c with metrics := c.metrics.recordPass summary }

/-- One mission pass. -/
def pass (c : Computer) : PassSummary × Computer := missionLoop.runOnce c

end Computer

end Spacecraft
