import Spacecraft.Computer.Commands
import Spacecraft.Proofs.Antenna.Run

/-!
# The antenna task on the computer

The hooks of the computer and the commands of its operator do to the antenna plan what the task does by itself, with the
controllers and the settings of the computer (`RunsOn`).  That calls are written down changes nothing
(`refresh_heard`, `execute_heard`).
-/

namespace Spacecraft

namespace Deployment

variable {δ : Type} [AntennaDriver δ] (task : Deployment) (heard : HeardControllers δ)

/-- A status query is answered as if nobody wrote it down. -/
theorem refresh_heard : ∃ calls readings,
    task.refresh heard =
      ((task.refresh heard.controllers).1, (task.refresh heard.controllers).2.1,
        ⟨(task.refresh heard.controllers).2.2.1, calls, readings⟩, (task.refresh heard.controllers).2.2.2) := by
  unfold refresh
  cases task.queried? with
  | none => exact ⟨_, _, rfl⟩
  | some channel => exact ⟨_, _, rfl⟩

/-- A command is carried out as if nobody wrote it down. -/
theorem execute_heard (limits : DeploymentLimits) : ∃ calls readings,
    task.execute limits heard =
      ((task.execute limits heard.controllers).1, ⟨(task.execute limits heard.controllers).2.1, calls, readings⟩,
        (task.execute limits heard.controllers).2.2) := by
  unfold execute
  cases task.pending? with
  | none => exact ⟨_, _, rfl⟩
  | some pending => exact ⟨_, _, rfl⟩

end Deployment

namespace DeploymentTask

/-- A computer carries the task out: with its own controllers, and with its own settings. -/
structure RunsOn (task : DeploymentTask AntennaHardware) (c : Computer) : Prop where
  deployment : c.deployment = task.deployment
  controllers : c.antennas = task.antennas.controllers
  settings : task.settings = some c.settings

variable {task : DeploymentTask AntennaHardware} {c : Computer}

/-- The update of the computer is that of the task. -/
theorem RunsOn.update (h : task.RunsOn c) (snapshot : Snapshot) :
    let (outcome, filled, next) := Computer.updateAntennas.run snapshot c
    outcome = Computer.outcome (task.update snapshot).1 ∧ filled = (task.update snapshot).2.1 ∧
      (task.update snapshot).2.2.RunsOn next := by
  obtain ⟨calls, readings, hrefresh⟩ := task.deployment.refresh_heard task.antennas
  rw [← h.deployment, ← h.controllers] at hrefresh
  rw [DeploymentTask.update, ← h.deployment, hrefresh, h.settings]
  exact ⟨rfl, rfl, rfl, rfl, rfl⟩

/-- The action of the computer is a step of the task, under the same condition. -/
theorem RunsOn.execute (h : task.RunsOn c) (snapshot : Snapshot) :
    Computer.deployAntennas.condition snapshot c =
        .ofBool (task.deployment.condition (.ofConfig c.config) snapshot) ∧
      (task.execute (.ofConfig c.config)).RunsOn (Computer.deployAntennas.execute snapshot c).2 := by
  obtain ⟨calls, readings, hexecute⟩ := task.deployment.execute_heard task.antennas (.ofConfig c.config)
  rw [← h.deployment, ← h.controllers] at hexecute
  rw [DeploymentTask.execute, ← h.deployment, hexecute]
  exact ⟨rfl, rfl, rfl, h.settings⟩

/-- The override of the operator is that of the task. -/
theorem RunsOn.setOverride (h : task.RunsOn c) (limits : DeploymentLimits) (enable : Bool) :
    (task.perform limits (.setOverride enable)).RunsOn (c.setAntennaOverride enable) :=
  ⟨congrArg (Deployment.setOverride enable) h.deployment, h.controllers, h.settings⟩

/-- A restart by the operator is that of the task. -/
theorem RunsOn.restart (h : task.RunsOn c) (limits : DeploymentLimits) :
    (task.perform limits .restart).RunsOn c.restartDeployment :=
  ⟨congrArg Deployment.restart h.deployment, h.controllers, h.settings⟩

end DeploymentTask

end Spacecraft
