import Spacecraft.Proofs.Antenna.Run

/-!
# The plan as the controllers see it

The commands that reach the controllers after the plan began anew are the first ones of a fixed script, as many of them
as steps were executed, whatever was answered (`onPlan_after`).  Whether a pass sends the next one depends on the
time, on the override and on the readings so far (`MayStep`).  `follows_plan` says both for every run.
-/

namespace Spacecraft

/-- The commands of the whole plan. -/
def DeploymentLimits.script (limits : DeploymentLimits) : List AntennaCall :=
  [Channel.primary, .backup].flatMap fun channel =>
    [.reset, .arm, .startAuto limits.autoTimeout,
      .deploy .antenna1 limits.stepTimeout true, .deploy .antenna2 limits.stepTimeout true,
      .deploy .antenna3 limits.stepTimeout true, .deploy .antenna4 limits.stepTimeout true,
      .disarm].map (AntennaCall.command channel)

namespace Deployment

/-- A pass at a time may execute a step after the readings so far: the antennas may be released, the operator insists or
some antenna was never reported out, the plan is not finished, and the last reading, if there is one, shows no burn
circuit on. -/
def MayStep (limits : DeploymentLimits) (time : Duration) (readings : List AntennaStatus) (task : Deployment) : Prop :=
  limits.threshold ≤ time ∧
    (task.overridden = true ∨ (AntennaStatus.everDeployed readings).all = false) ∧
    task.step < 16 ∧ ∀ status, readings.getLast? = some status → status.active.any = false

private theorem Informed.condition_iff {limits : DeploymentLimits} {snapshot : Snapshot} {readings : List AntennaStatus}
    {task : Deployment} (h : task.Informed readings) :
    task.condition limits (task.publish snapshot) = true ↔ task.MayStep limits snapshot.time readings := by
  have hfinished : task.finished = false ↔ task.step < 16 := by
    rw [finished, decide_eq_false_iff_not, Nat.not_le]
    rfl
  rw [condition_publish_iff, MayStep, h.seen, hfinished, h.inProgress_eq_false_iff]

/-- The script has the command of the pending step where the plan has the step. -/
private theorem getElem?_script (limits : DeploymentLimits) (task : Deployment) :
    limits.script[task.step]? = task.pending?.map fun (channel, step) => .command channel (step.command limits) := by
  rw [pending?, ← List.getElem?_map]
  rfl

/-- The first half of the plan is on the primary controller and the second half on the backup. -/
private theorem queried?_eq (task : Deployment) : task.queried? =
    if task.step < 8 then some .primary else if task.step < 16 then some .backup else none := by
  have hplan : plan.map Prod.fst = List.replicate 8 .primary ++ List.replicate 8 .backup := rfl
  rw [queried?, pending?, ← List.getElem?_map, hplan, List.getElem?_append, List.length_replicate,
    List.getElem?_replicate, List.getElem?_replicate]
  split
  · rfl
  · congr 1
    rw [eq_iff_iff]
    omega

end Deployment

namespace DeploymentTask

variable {δ : Type}

/-- The next command of the script was sent and its step counted. -/
def Stepped (limits : DeploymentLimits) (task next : DeploymentTask δ) : Prop :=
  ∃ command, limits.script[task.deployment.step]? = some command ∧ next.commands = task.commands ++ [command] ∧
    next.deployment.step = task.deployment.step + 1

/-- No command was sent and no step counted. -/
def Rested (task next : DeploymentTask δ) : Prop :=
  next.commands = task.commands ∧ next.deployment.step = task.deployment.step

/-- All steps so far sent their commands, in the order of the script, after those from before the plan began anew. -/
def OnPlan (limits : DeploymentLimits) (before : List AntennaCall) (task : DeploymentTask δ) : Prop :=
  task.deployment.step ≤ 16 ∧ task.commands = before ++ limits.script.take task.deployment.step

variable (limits : DeploymentLimits) (task : DeploymentTask δ)

private theorem onPlan_of_step_eq_zero (h : task.deployment.step = 0) : task.OnPlan limits task.commands := by
  rw [OnPlan, h]
  exact ⟨Nat.zero_le _, (List.append_nil _).symm⟩

variable [AntennaDriver δ]

/-! ### One step -/

theorem stepped_execute (h : task.deployment.step < 16) : task.Stepped limits (task.execute limits) := by
  rcases task.execute_cases limits with ⟨hp, -⟩ | ⟨channel, step, _, hp, hd, ha⟩
  · rw [Deployment.pending?_eq_none_iff, Deployment.finished, decide_eq_true_iff] at hp
    exact absurd hp (Nat.not_le.2 h)
  · refine ⟨.command channel (step.command limits), ?_, ?_, ?_⟩
    · rw [Deployment.getElem?_script, hp]
      rfl
    · rw [commands, commands, ha, List.filter_append]
      rfl
    · rw [hd, Deployment.step_advance]

/-- A pass sends the next command where it may, judged by all readings up to its own one. -/
theorem pass_step (snapshot : Snapshot) (h : task.deployment.Informed task.antennas.readings) :
    let next := task.pass limits snapshot
    let may := task.deployment.MayStep limits snapshot.time next.antennas.readings
    (may ∧ task.Stepped limits next) ∨ (¬ may ∧ task.Rested next) := by
  intro next may
  -- The condition is checked after the update, which moves neither the step nor the override.
  have hmay : (task.update snapshot).2.2.deployment.condition limits
      ((task.update snapshot).2.2.deployment.publish snapshot) = true ↔ may := by
    rw [(task.informed_update snapshot h).condition_iff, ← readings_pass limits, Deployment.MayStep, overridden_update,
      step_update]
    exact Iff.rfl
  rcases task.pass_cases limits snapshot with ⟨holds, hpass⟩ | ⟨fails, hpass⟩
  · have hnow := hmay.1 holds
    have hstep := (task.update snapshot).2.2.stepped_execute limits (by rw [step_update]; exact hnow.2.2.1)
    rw [Stepped, step_update, commands_update, ← hpass] at hstep
    exact Or.inl ⟨hnow, hstep⟩
  · refine Or.inr ⟨fun hnow => ?_, ?_, ?_⟩
    · rw [hmay.2 hnow] at fails
      cases fails
    · exact (congrArg commands hpass).trans (commands_update ..)
    · exact (congrArg (·.deployment.step) hpass).trans (step_update ..)

/-- An operation with which the plan does not begin anew sends the next command or none. -/
private theorem perform_step (operation : Operation) (hr : operation.restarts = false)
    (h : task.deployment.Informed task.antennas.readings) :
    task.Stepped limits (task.perform limits operation) ∨ task.Rested (task.perform limits operation) := by
  cases operation with
  | pass snapshot => exact (task.pass_step limits snapshot h).imp And.right And.right
  | setOverride enable =>
    change enable = false at hr
    rw [hr]
    exact Or.inr ⟨rfl, rfl⟩
  | restart => cases hr

private theorem step_perform_of_restarts {operation : Operation} (hr : operation.restarts = true) :
    (task.perform limits operation).deployment.step = 0 := by
  cases operation with
  | pass snapshot => cases hr
  | setOverride enable =>
    change enable = true at hr
    rw [hr]
    rfl
  | restart => rfl

/-! ### Runs -/

theorem OnPlan.perform {before : List AntennaCall} (h : task.OnPlan limits before)
    (hinformed : task.deployment.Informed task.antennas.readings) {operation : Operation}
    (hr : operation.restarts = false) : (task.perform limits operation).OnPlan limits before := by
  rcases task.perform_step limits operation hr hinformed with ⟨command, hcommand, hcommands, hstep⟩ | ⟨hcommands, hstep⟩
  · have hlt : task.deployment.step < 16 := (List.getElem?_eq_some_iff.1 hcommand).1
    rw [OnPlan, hcommands, hstep, List.take_add_one, hcommand, h.2, List.append_assoc]
    exact ⟨hlt, rfl⟩
  · rw [OnPlan, hcommands, hstep]
    exact h

/-- In a run the task is always on its plan since the last operation with which the plan began anew. -/
theorem onPlan_after (controllers : δ) (settings : Option SettingsStore) (operations : List Operation) :
    ((start controllers settings).after limits operations).OnPlan limits
      ((start controllers settings).after limits (upToRestart operations)).commands := by
  -- By the last operation: either the plan begins anew with it, or the last restart is the same as before it.
  induction operations using List.reverseRecOn with
  | nil => exact onPlan_of_step_eq_zero limits _ rfl
  | append_singleton operations operation ih =>
    rw [upToRestart, List.rdropWhile_concat]
    cases hr : operation.restarts with
    | true =>
      rw [if_neg (by simp), after_concat]
      exact onPlan_of_step_eq_zero limits _ (step_perform_of_restarts limits _ hr)
    | false =>
      rw [if_pos (by simp), after_concat]
      exact ih.perform limits _ (informed_after limits _ operations Deployment.informed_initial) hr

/-- The antenna task in any run, whatever its controllers answer, and one more pass.  The commands since the plan began
anew are the first ones of the script, one for each step that is counted.  The pass sends the next one where it may, and
no command else; it asks the controller of the step that was pending for its status, or none once the plan is
finished. -/
theorem follows_plan (controllers : δ) (settings : Option SettingsStore) (operations : List Operation)
    (snapshot : Snapshot) :
    let began := (start controllers settings).after limits (upToRestart operations)
    let task := (start controllers settings).after limits operations
    let next := task.pass limits snapshot
    let step := task.deployment.step
    let may := task.deployment.MayStep limits snapshot.time next.antennas.readings
    step ≤ 16 ∧ task.commands = began.commands ++ limits.script.take step ∧
    (task.Stepped limits next ↔ may) ∧ (task.Rested next ↔ ¬ may) ∧
    next.queries = task.queries ++
      if step < 8 then [.status .primary] else if step < 16 then [.status .backup] else [] := by
  intro began task next step may
  have hinformed := informed_after limits (start controllers settings) operations Deployment.informed_initial
  obtain ⟨hle, hcommands⟩ := onPlan_after limits controllers settings operations
  have hone : ¬ (task.Stepped limits next ∧ task.Rested next) := by
    rintro ⟨⟨_, -, -, hstep⟩, -, hrest⟩
    rw [hrest] at hstep
    exact Nat.succ_ne_self _ hstep.symm
  refine ⟨hle, hcommands, ?_, ?_, ?_⟩
  · rcases task.pass_step limits snapshot hinformed with ⟨hmay, h⟩ | ⟨hmay, h⟩
    · exact iff_of_true h hmay
    · exact iff_of_false (fun hs => hone ⟨hs, h⟩) hmay
  · rcases task.pass_step limits snapshot hinformed with ⟨hmay, h⟩ | ⟨hmay, h⟩
    · exact iff_of_false (fun hs => hone ⟨h, hs⟩) (not_not_intro hmay)
    · exact iff_of_true h hmay
  · show (task.pass limits snapshot).queries = _
    rw [queries_pass, Deployment.queried?_eq]
    congr 1
    show _ = if task.deployment.step < 8 then _ else if task.deployment.step < 16 then _ else _
    split
    · rfl
    · split <;> rfl

/-- A plan that nothing holds up is sent as a whole, and nothing after it. -/
example :
    ((start AntennaBench.fresh none).after ⟨.zero, .ofMillis 10, .ofMillis 20⟩
      (.replicate 18 (.pass .initial))).commands =
    DeploymentLimits.script ⟨.zero, .ofMillis 10, .ofMillis 20⟩ := by
  decide +kernel

end DeploymentTask

end Spacecraft
