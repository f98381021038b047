import Mathlib.Data.List.DropRight
import Spacecraft.Antenna.Bench
import Spacecraft.Antenna.Deployment

/-!
# Runs of the antenna task

Passes of the antenna task, with an operator who sets the override and restarts the plan as he likes, and with
controllers that may answer anything.  The calls that reach the controllers are written down where they arrive, with the
status readings that came back (`HeardControllers`).  A pass asks for one status at most and sends one command at most
(`update_cases`, `execute_cases`), and all that the task knows of the antennas is what was read (`Deployment.Informed`).
-/

namespace Spacecraft

/-- Controllers with the calls that reached them and the status readings that came back, in order. -/
structure HeardControllers (δ : Type) where
  controllers : δ
  calls : List AntennaCall
  readings : List AntennaStatus

instance {δ : Type} [AntennaDriver δ] : AntennaDriver (HeardControllers δ) where
  perform channel command heard :=
    let (answer, reports, controllers) := AntennaDriver.perform channel command heard.controllers
    (answer, reports, { heard with controllers, calls := heard.calls ++ [.command channel command] })
  status channel heard :=
    let (reading, reports, controllers) := AntennaDriver.status channel heard.controllers
    (reading, reports,
      { controllers
        calls := heard.calls ++ [.status channel]
        readings := heard.readings ++ reading.toOption.toList })

/-- The antennas that some of the readings report out. -/
def AntennaStatus.everDeployed (readings : List AntennaStatus) : AntennaFlags :=
  readings.foldl (fun flags status => flags.union status.deployed) .none

/-- What is known of the antennas is what the readings say: the last one counts, and all of them for what is out. -/
structure Deployment.Informed (readings : List AntennaStatus) (task : Deployment) : Prop where
  lastStatus : task.lastStatus = readings.getLast?.getD .initial
  inProgress : task.inProgress = task.lastStatus.active.any
  seen : task.seen = AntennaStatus.everDeployed readings

/-- The antenna task with what it works on: how far it has come, the controllers, and the settings in which it stores
what it saw, if it has any. -/
structure DeploymentTask (δ : Type) where
  deployment : Deployment
  antennas : HeardControllers δ
  settings : Option SettingsStore

namespace DeploymentTask

/-- What happens to the antenna task. -/
inductive Operation where
  | pass (snapshot : Snapshot)
  | setOverride (enable : Bool)
  | restart

/-- The plan begins anew with the operation. -/
def Operation.restarts : Operation → Bool
  | .pass _ => false
  | .setOverride enable => enable
  | .restart => true

variable {δ : Type}

/-- The task at its start. -/
def start (controllers : δ) (settings : Option SettingsStore) : DeploymentTask δ :=
  ⟨.initial, ⟨controllers, [], []⟩, settings⟩

/-- The commands that reached the controllers. -/
def commands (task : DeploymentTask δ) : List AntennaCall := task.antennas.calls.filter AntennaBench.isCommand

/-- The status queries that reached the controllers. -/
def queries (task : DeploymentTask δ) : List AntennaCall :=
  task.antennas.calls.filter fun call => !AntennaBench.isCommand call

variable [AntennaDriver δ]

/-- Ask the pending controller for its status, fill in the antennas and store what is new. -/
def update (snapshot : Snapshot) (task : DeploymentTask δ) : UpdateResult × Snapshot × DeploymentTask δ :=
  let (result, _, antennas, deployment) := task.deployment.refresh task.antennas
  (result, deployment.publish snapshot,
    ⟨deployment, antennas, task.settings.map fun store => (deployment.remember store).2⟩)

/-- Execute the pending step. -/
def execute (limits : DeploymentLimits) (task : DeploymentTask δ) : DeploymentTask δ :=
  let (_, antennas, deployment) := task.deployment.execute limits task.antennas
  { task with antennas, deployment }

/-- The update, and after it a step of the plan if the condition holds. -/
def pass (limits : DeploymentLimits) (snapshot : Snapshot) (task : DeploymentTask δ) : DeploymentTask δ :=
  let (_, snapshot, task) := task.update snapshot
  if task.deployment.condition limits snapshot then task.execute limits else task

/-- Let something happen to the task. -/
def perform (limits : DeploymentLimits) (operation : Operation) (task : DeploymentTask δ) : DeploymentTask δ :=
  match operation with
  | .pass snapshot => task.pass limits snapshot
  | .setOverride enable => { task with deployment := task.deployment.setOverride enable }
  | .restart => { task with deployment := task.deployment.restart }

/-- The task after operations in order. -/
def after (limits : DeploymentLimits) (operations : List Operation) (task : DeploymentTask δ) : DeploymentTask δ :=
  operations.foldl (fun task operation => task.perform limits operation) task

/-- The operations up to the last one with which the plan began anew. -/
def upToRestart (operations : List Operation) : List Operation :=
  operations.rdropWhile fun operation => !operation.restarts

end DeploymentTask

/-! ### What is known -/

theorem AntennaStatus.everDeployed_concat (readings : List AntennaStatus) (status : AntennaStatus) :
    everDeployed (readings ++ [status]) = (everDeployed readings).union status.deployed := by
  rw [everDeployed, everDeployed, List.foldl_append]
  rfl

namespace Deployment

theorem informed_initial : Informed [] initial := ⟨rfl, rfl, rfl⟩

theorem Informed.observe {readings : List AntennaStatus} {task : Deployment} (h : task.Informed readings)
    (reading : Except DeviceError AntennaStatus) :
    (task.observe reading).2.Informed (readings ++ reading.toOption.toList) := by
  cases reading with
  | error e =>
    show task.Informed (readings ++ [])
    rwa [List.append_nil]
  | ok status =>
    constructor
    · show status = (readings ++ [status]).getLast?.getD .initial
      rw [List.getLast?_concat]
      rfl
    · rfl
    · show task.seen.union status.deployed = AntennaStatus.everDeployed (readings ++ [status])
      rw [AntennaStatus.everDeployed_concat, h.seen]

theorem Informed.advance {readings : List AntennaStatus} {task : Deployment} (h : task.Informed readings) :
    task.advance.Informed readings := by
  rw [Deployment.advance]
  split <;> exact ⟨h.lastStatus, h.inProgress, h.seen⟩

/-- No burn circuit is known to be on exactly where the last reading, if any, shows none. -/
theorem Informed.inProgress_eq_false_iff {readings : List AntennaStatus} {task : Deployment}
    (h : task.Informed readings) :
    task.inProgress = false ↔ ∀ status, readings.getLast? = some status → status.active.any = false := by
  rw [h.inProgress, h.lastStatus]
  cases readings.getLast? with
  | none => simp [AntennaStatus.initial, AntennaFlags.any, AntennaFlags.none]
  | some status => simp

end Deployment

namespace DeploymentTask

variable {δ : Type} [AntennaDriver δ] (limits : DeploymentLimits) (snapshot : Snapshot) (task : DeploymentTask δ)

/-! ### One pass -/

/-- An update asks for the status of the pending controller and observes the answer; once the plan is finished it asks
for nothing. -/
theorem update_cases :
    (task.deployment.pending? = none ∧ (task.update snapshot).2.2.deployment = task.deployment ∧
      (task.update snapshot).2.2.antennas = task.antennas) ∨
    ∃ channel step reading controllers, task.deployment.pending? = some (channel, step) ∧
      (task.update snapshot).2.2.deployment = (task.deployment.observe reading).2 ∧
      (task.update snapshot).2.2.antennas = ⟨controllers, task.antennas.calls ++ [.status channel],
        task.antennas.readings ++ reading.toOption.toList⟩ := by
  rw [update, Deployment.refresh, Deployment.queried?]
  cases h : task.deployment.pending? with
  | none => exact Or.inl ⟨rfl, rfl, rfl⟩
  | some pending => exact Or.inr ⟨pending.1, pending.2, _, _, rfl, rfl, rfl⟩

/-- An executed step sends its command and leads to the next one, whatever the answer; once the plan is finished nothing
is sent. -/
theorem execute_cases :
    (task.deployment.pending? = none ∧ task.execute limits = task) ∨
    ∃ channel step controllers, task.deployment.pending? = some (channel, step) ∧
      (task.execute limits).deployment = task.deployment.advance ∧
      (task.execute limits).antennas = ⟨controllers, task.antennas.calls ++ [.command channel (step.command limits)],
        task.antennas.readings⟩ := by
  rw [execute, Deployment.execute]
  cases h : task.deployment.pending? with
  | none => exact Or.inl ⟨rfl, rfl⟩
  | some pending => exact Or.inr ⟨pending.1, pending.2, _, rfl, rfl, rfl⟩

@[simp]
theorem step_update : (task.update snapshot).2.2.deployment.step = task.deployment.step := by
  rcases task.update_cases snapshot with ⟨-, h, -⟩ | ⟨_, _, _, _, -, h, -⟩ <;> rw [h]
  exact Deployment.step_observe _ _

@[simp]
theorem overridden_update : (task.update snapshot).2.2.deployment.overridden = task.deployment.overridden := by
  rcases task.update_cases snapshot with ⟨-, h, -⟩ | ⟨_, _, _, _, -, h, -⟩ <;> rw [h]
  exact Deployment.overridden_observe _ _

@[simp]
theorem commands_update : (task.update snapshot).2.2.commands = task.commands := by
  rw [commands, commands]
  rcases task.update_cases snapshot with ⟨-, -, h⟩ | ⟨_, _, _, _, -, -, h⟩ <;> rw [h]
  rw [List.filter_append]
  exact List.append_nil _

private theorem queries_update : (task.update snapshot).2.2.queries =
    task.queries ++ (task.deployment.queried?.map AntennaCall.status).toList := by
  rw [queries, queries, Deployment.queried?]
  rcases task.update_cases snapshot with ⟨hp, -, h⟩ | ⟨_, _, _, _, hp, -, h⟩ <;> rw [h, hp]
  · exact (List.append_nil _).symm
  · rw [List.filter_append]
    rfl

theorem informed_update (h : task.deployment.Informed task.antennas.readings) :
    (task.update snapshot).2.2.deployment.Informed (task.update snapshot).2.2.antennas.readings := by
  rcases task.update_cases snapshot with ⟨-, hd, ha⟩ | ⟨_, _, _, _, -, hd, ha⟩ <;> rw [hd, ha]
  · exact h
  · exact h.observe _

@[simp]
theorem queries_execute : (task.execute limits).queries = task.queries := by
  rw [queries, queries]
  rcases task.execute_cases limits with ⟨-, h⟩ | ⟨_, _, _, -, -, h⟩ <;> rw [h]
  rw [List.filter_append]
  exact List.append_nil _

@[simp]
theorem readings_execute : (task.execute limits).antennas.readings = task.antennas.readings := by
  rcases task.execute_cases limits with ⟨-, h⟩ | ⟨_, _, _, -, -, h⟩ <;> rw [h]

theorem informed_execute (h : task.deployment.Informed task.antennas.readings) :
    (task.execute limits).deployment.Informed (task.execute limits).antennas.readings := by
  rw [readings_execute]
  rcases task.execute_cases limits with ⟨-, hd⟩ | ⟨_, _, _, -, hd, -⟩ <;> rw [hd]
  · exact h
  · exact h.advance

/-- A pass executes a step after the update where the condition holds then; else it ends with the update. -/
theorem pass_cases :
    let updated := (task.update snapshot).2.2
    let holds := updated.deployment.condition limits (updated.deployment.publish snapshot)
    (holds = true ∧ task.pass limits snapshot = updated.execute limits) ∨
      (holds = false ∧ task.pass limits snapshot = updated) := by
  intro updated holds
  have hpass : task.pass limits snapshot = if holds then updated.execute limits else updated := rfl
  rw [hpass]
  cases holds with
  | true => exact Or.inl ⟨rfl, rfl⟩
  | false => exact Or.inr ⟨rfl, rfl⟩

theorem readings_pass :
    (task.pass limits snapshot).antennas.readings = (task.update snapshot).2.2.antennas.readings := by
  rcases task.pass_cases limits snapshot with ⟨-, h⟩ | ⟨-, h⟩ <;> rw [h]
  exact readings_execute ..

theorem queries_pass : (task.pass limits snapshot).queries =
    task.queries ++ (task.deployment.queried?.map AntennaCall.status).toList := by
  rw [← queries_update snapshot]
  rcases task.pass_cases limits snapshot with ⟨-, h⟩ | ⟨-, h⟩ <;> rw [h]
  exact queries_execute ..

/-! ### Runs -/

private theorem informed_perform (operation : Operation) (h : task.deployment.Informed task.antennas.readings) :
    (task.perform limits operation).deployment.Informed (task.perform limits operation).antennas.readings := by
  cases operation with
  | pass snapshot =>
    have hupdated := task.informed_update snapshot h
    rw [perform]
    rcases task.pass_cases limits snapshot with ⟨-, hpass⟩ | ⟨-, hpass⟩ <;> rw [hpass]
    · exact informed_execute limits _ hupdated
    · exact hupdated
  | setOverride enable => exact ⟨h.lastStatus, h.inProgress, h.seen⟩
  | restart => exact ⟨h.lastStatus, h.inProgress, h.seen⟩

theorem after_concat (operations : List Operation) (operation : Operation) :
    task.after limits (operations ++ [operation]) = (task.after limits operations).perform limits operation := by
  unfold after
  rw [List.foldl_append]
  rfl

theorem informed_after (operations : List Operation) (h : task.deployment.Informed task.antennas.readings) :
    (task.after limits operations).deployment.Informed (task.after limits operations).antennas.readings := by
  induction operations using List.reverseRecOn with
  | nil => exact h
  | append_singleton operations operation ih =>
    rw [after_concat]
    exact informed_perform limits _ operation ih

end DeploymentTask

end Spacecraft
