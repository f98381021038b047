import Spacecraft.Antenna.Protocol
import Spacecraft.Proofs.Antenna.Plan

/-!
# Passes that read nothing

A status query that fails leaves everything as the last reading told it (`readings_pass_of_unanswered`), the burn
circuits included.  So a pass that reads nothing executes its step exactly where the last reading, however old, shows
no burn circuit on (`blind_pass_steps_iff`), and a controller that falls silent during a burn holds the plan up for as
long as it is silent (`step_after_blind_passes`).
-/

namespace Spacecraft

namespace DeploymentTask

variable {δ : Type} [AntennaDriver δ] (limits : DeploymentLimits)

/-- The status query of the next pass, if it makes one, fails. -/
def Unanswered (task : DeploymentTask δ) : Prop :=
  ∀ channel, task.deployment.queried? = some channel →
    (AntennaDriver.status channel task.antennas.controllers).1.toBool = false

/-- The last reading, if there is one, shows no burn circuit on. -/
def Quiet (task : DeploymentTask δ) : Prop :=
  ∀ status, task.antennas.readings.getLast? = some status → status.active.any = false

/-- The operator insists, or some antenna was never reported out. -/
def Needed (task : DeploymentTask δ) : Prop :=
  task.deployment.overridden = true ∨ (AntennaStatus.everDeployed task.antennas.readings).all = false

variable {limits} {task : DeploymentTask δ} {snapshot : Snapshot}

/-! ### One pass -/

theorem readings_pass_of_unanswered (h : task.Unanswered) :
    (task.pass limits snapshot).antennas.readings = task.antennas.readings := by
  rw [readings_pass, update, Deployment.refresh]
  cases hq : task.deployment.queried? with
  | none => rfl
  | some channel =>
    have hfails := h channel hq
    show task.antennas.readings ++
      (AntennaDriver.status channel task.antennas.controllers).1.toOption.toList = task.antennas.readings
    cases hreading : (AntennaDriver.status channel task.antennas.controllers).1 with
    | ok status =>
      rw [hreading] at hfails
      cases hfails
    | error error => exact List.append_nil _

/-- The override outlives a pass that does not finish the plan. -/
private theorem overridden_pass_of_lt (h : (task.pass limits snapshot).deployment.step < 16) :
    (task.pass limits snapshot).deployment.overridden = task.deployment.overridden := by
  rcases task.pass_cases limits snapshot with ⟨-, hpass⟩ | ⟨-, hpass⟩ <;> rw [hpass] at h ⊢
  · rcases (task.update snapshot).2.2.execute_cases limits with ⟨-, hd⟩ | ⟨_, _, _, -, hd, -⟩ <;> rw [hd] at h ⊢
    · exact overridden_update ..
    · have hrun : ((task.update snapshot).2.2.deployment.step + 1) < 16 := by
        rwa [Deployment.step_advance] at h
      have hgoes : Deployment.finished { (task.update snapshot).2.2.deployment with
          step := (task.update snapshot).2.2.deployment.step + 1 } = false :=
        decide_eq_false (Nat.not_le.2 hrun)
      rw [Deployment.advance, hgoes]
      exact overridden_update ..
  · exact overridden_update ..

/-- A pass that reads nothing, when antennas may be released and there is still something to do, executes a step exactly
where the last reading shows no burn circuit on. -/
theorem pass_of_unanswered (hinformed : task.deployment.Informed task.antennas.readings) (hfails : task.Unanswered)
    (htime : limits.threshold ≤ snapshot.time) (hplan : task.deployment.step < 16)
    (hneeded : task.Needed) :
    (task.Quiet ∧ task.Stepped limits (task.pass limits snapshot)) ∨
      (¬ task.Quiet ∧ task.Rested (task.pass limits snapshot)) := by
  have hstep := task.pass_step limits snapshot hinformed
  simp only [readings_pass_of_unanswered hfails] at hstep
  rcases hstep with ⟨⟨-, -, -, hquiet⟩, hstepped⟩ | ⟨hmay, hrested⟩
  · exact Or.inl ⟨hquiet, hstepped⟩
  · exact Or.inr ⟨fun hquiet => hmay ⟨htime, hneeded, hplan, hquiet⟩, hrested⟩

omit [AntennaDriver δ] in
private theorem not_stepped_and_rested {next : DeploymentTask δ} : ¬ (task.Stepped limits next ∧ task.Rested next) := by
  rintro ⟨⟨_, -, -, hstep⟩, -, hrest⟩
  rw [hrest] at hstep
  exact Nat.succ_ne_self _ hstep.symm

/-! ### Runs -/

/-- In any run: a pass whose status query fails, at a time when antennas may be released, with the plan unfinished and
with the override set or some antenna never seen out, sends the next command of the script where the last reading shows
no burn circuit on, and only there; else it sends nothing. -/
theorem blind_pass_steps_iff (controllers : δ) (settings : Option SettingsStore) (operations : List Operation)
    (snapshot : Snapshot)
    (hfails : ((start controllers settings).after limits operations).Unanswered)
    (htime : limits.threshold ≤ snapshot.time)
    (hplan : ((start controllers settings).after limits operations).deployment.step < 16)
    (hneeded : ((start controllers settings).after limits operations).Needed) :
    let task := (start controllers settings).after limits operations
    (task.Stepped limits (task.pass limits snapshot) ↔ task.Quiet) ∧
      (task.Rested (task.pass limits snapshot) ↔ ¬ task.Quiet) := by
  intro task
  have hinformed := informed_after limits (start controllers settings) operations Deployment.informed_initial
  rcases pass_of_unanswered hinformed hfails htime hplan hneeded with ⟨hquiet, h⟩ | ⟨hburning, h⟩
  · exact ⟨iff_of_true h hquiet, iff_of_false (fun hr => not_stepped_and_rested ⟨h, hr⟩) (not_not_intro hquiet)⟩
  · exact ⟨iff_of_false (fun hs => not_stepped_and_rested ⟨hs, h⟩) hburning, iff_of_true h hburning⟩

/-- Answers of a primary controller on the bus: a status with all antennas in, whose second byte tells which burn
circuits are on, and then a word that the controller itself calls invalid. -/
def fallingSilent (second : UInt8) : Bus := (Bus.idle.respond [0x88, second]).respond [0x00, 0x10]

theorem blind_pass_steps_iff_falling_silent :
    let limits : DeploymentLimits := ⟨.zero, .ofMillis 10, .ofMillis 20⟩
    let quiet := (start (fallingSilent 0x88) none).after limits [.pass .initial]
    let burning := (start (fallingSilent 0x8a) none).after limits [.pass .initial]
    (quiet.Unanswered ∧ quiet.Stepped limits (quiet.pass limits .initial)) ∧
      (burning.Unanswered ∧ burning.Rested (burning.pass limits .initial)) := by
  intro limits quiet burning
  have hquiet : quiet.Unanswered := by
    intro channel h
    cases h
    decide
  have hburning : burning.Unanswered := by
    intro channel h
    cases h
    decide
  refine ⟨⟨hquiet, (blind_pass_steps_iff (fallingSilent 0x88) none [.pass .initial] .initial hquiet (by decide)
    (by decide) (Or.inr (by decide))).1.2 ?_⟩, hburning,
    (blind_pass_steps_iff (fallingSilent 0x8a) none [.pass .initial] .initial hburning (by decide)
      (by decide) (Or.inr (by decide))).2.2 ?_⟩
  · intro status h
    cases h
    rfl
  · intro h
    exact absurd (h _ rfl) (by decide)

/-- A reading with a burn circuit on, and a query that fails after it: the pass sends nothing, although antennas may be
released, none was seen out and the plan has only begun. -/
theorem silent_burn_holds_plan_up :
    let limits : DeploymentLimits := ⟨.zero, .ofMillis 10, .ofMillis 20⟩
    let task := (start (fallingSilent 0x8a) none).after limits [.pass .initial]
    task.deployment.queried? = some .primary ∧
      (AntennaDriver.status .primary task.antennas.controllers).1.toBool = false ∧
      limits.threshold ≤ Snapshot.initial.time ∧ task.deployment.step < 16 ∧
      (AntennaStatus.everDeployed task.antennas.readings).all = false ∧
      (task.pass limits .initial).commands = task.commands ∧
      (task.pass limits .initial).deployment.step = task.deployment.step := by
  decide

/-- Passes in a row that read nothing, all at times when antennas may be released and with something left to do, execute
a step each if the last reading before them shows no burn circuit on, and none at all if it shows one. -/
theorem step_after_blind_passes (hinformed : task.deployment.Informed task.antennas.readings) (passes : List Snapshot)
    (hfails : ∀ earlier later, passes = earlier ++ later → later ≠ [] →
      (task.after limits (earlier.map .pass)).Unanswered)
    (htime : ∀ snapshot ∈ passes, limits.threshold ≤ snapshot.time)
    (hplan : task.deployment.step + passes.length ≤ 16) (hneeded : task.Needed) :
    let next := task.after limits (passes.map .pass)
    next.antennas.readings = task.antennas.readings ∧
      (next.deployment.step < 16 → next.deployment.overridden = task.deployment.overridden) ∧
      (task.Quiet → next.deployment.step = task.deployment.step + passes.length) ∧
      (¬ task.Quiet → next.deployment.step = task.deployment.step) := by
  induction passes using List.reverseRecOn with
  | nil => exact ⟨rfl, fun _ => rfl, fun _ => rfl, fun _ => rfl⟩
  | append_singleton passes snapshot ih =>
    rw [List.length_append, List.length_singleton] at hplan
    obtain ⟨hreadings, hoverride, hquiet, hburning⟩ := ih
      (fun earlier later h hne => hfails earlier (later ++ [snapshot]) (by rw [h, List.append_assoc]) (by simp))
      (fun s hs => htime s (List.mem_append_left _ hs)) (by omega)
    have hbefore := informed_after limits task (passes.map .pass) hinformed
    have hunanswered := hfails passes [snapshot] rfl (by simp)
    rw [List.map_append, List.map_singleton, after_concat]
    -- What the pass finds is what the first of all passes found, but for the step.
    revert hreadings hoverride hquiet hburning hbefore hunanswered
    generalize task.after limits (passes.map .pass) = before
    intro hreadings hoverride hquiet hburning hbefore hunanswered
    have hsame : before.Quiet ↔ task.Quiet := by rw [Quiet, Quiet, hreadings]
    have hroom : before.deployment.step < 16 := by
      by_cases h : task.Quiet
      · rw [hquiet h]
        omega
      · rw [hburning h]
        omega
    have hstill : before.Needed := by
      rw [Needed, hoverride hroom, hreadings]
      exact hneeded
    refine ⟨(readings_pass_of_unanswered hunanswered).trans hreadings,
      fun h => (overridden_pass_of_lt h).trans (hoverride hroom), ?_⟩
    rcases pass_of_unanswered hbefore hunanswered (htime snapshot (by simp)) hroom hstill with
      ⟨hq, _, -, -, hstep⟩ | ⟨hq, -, hstep⟩
    · refine ⟨fun h => ?_, fun h => absurd (hsame.1 hq) h⟩
      rw [List.length_append, List.length_singleton, ← Nat.add_assoc, ← hquiet h]
      exact hstep
    · exact ⟨fun h => absurd (hsame.2 h) hq, fun h => hstep.trans (hburning h)⟩

end DeploymentTask

end Spacecraft
