import Mathlib.Data.List.Induction
import Spacecraft.Proofs.Antenna.Run

/-!
# What the antenna task publishes

Updates and executed steps in any order, with an operator in between.  The antennas that an update publishes are those
that some reading so far reports out (`Informed`, kept by every call in `informed_receive`), so none is ever lost again.
Whether they count as deployed depends on the override too, and the override holds from the order to set it until the
order to drop it or the last step of the plan (`overridden_afterCalls`).
-/

namespace Spacecraft

namespace DeploymentTask

/-- What the antenna task is called for. -/
inductive Call where
  | update (snapshot : Snapshot)
  | execute
  | setOverride (enable : Bool)
  | restart

variable {δ : Type} [AntennaDriver δ]

/-- Carry out a call. -/
def receive (limits : DeploymentLimits) (call : Call) (task : DeploymentTask δ) : DeploymentTask δ :=
  match call with
  | .update snapshot => (task.update snapshot).2.2
  | .execute => task.execute limits
  | .setOverride enable => { task with deployment := task.deployment.setOverride enable }
  | .restart => { task with deployment := task.deployment.restart }

/-- The task after calls in order. -/
def afterCalls (limits : DeploymentLimits) (calls : List Call) (task : DeploymentTask δ) : DeploymentTask δ :=
  calls.foldl (fun task call => task.receive limits call) task

/-- The next update asks for a status and does not get it. -/
def ReadFails (task : DeploymentTask δ) : Prop :=
  ∃ channel, task.deployment.queried? = some channel ∧
    (AntennaDriver.status channel task.antennas.controllers).1.toBool = false

/-- The override was set, and since then it was not dropped and the last step of the plan was not executed. -/
def Insisted (limits : DeploymentLimits) (calls : List Call) (task : DeploymentTask δ) : Prop :=
  ∃ before since, calls = before ++ .setOverride true :: since ∧ .setOverride false ∉ since ∧
    ∀ early late, since = early ++ .execute :: late →
      (task.afterCalls limits (before ++ .setOverride true :: early)).deployment.pending? ≠ some (.backup, .disarm)

end DeploymentTask

private theorem AntennaFlags.get_union (a b : AntennaFlags) (slot : Fin 4) :
    (a.union b).get slot = (a.get slot || b.get slot) := by
  match slot with
  | 0 => rfl
  | 1 => rfl
  | 2 => rfl
  | 3 => rfl

private theorem AntennaFlags.all_iff (flags : AntennaFlags) : flags.all = true ↔ ∀ slot, flags.get slot = true := by
  simp [all, get, Fin.forall_fin_succ, and_assoc]

private theorem AntennaStatus.get_everDeployed (readings : List AntennaStatus) (slot : Fin 4) :
    (everDeployed readings).get slot = readings.any fun status => status.deployed.get slot := by
  induction readings using List.reverseRecOn with
  | nil =>
    match slot with
    | 0 => rfl
    | 1 => rfl
    | 2 => rfl
    | 3 => rfl
  | append_singleton readings status ih =>
    rw [everDeployed_concat, AntennaFlags.get_union, ih, List.any_append, List.any_cons, List.any_nil, Bool.or_false]

namespace Deployment

/-- The plan ends with disarming the backup controller, and only with that. -/
private theorem getElem?_plan_eq_last_iff (n : Nat) : plan[n]? = some (.backup, .disarm) ↔ n = 15 := by
  have hplan : ∀ i : Fin plan.length, plan[i] = (.backup, .disarm) ↔ i.val = 15 := by decide
  constructor
  · intro h
    obtain ⟨hn, heq⟩ := List.getElem?_eq_some_iff.1 h
    exact (hplan ⟨n, hn⟩).1 heq
  · rintro rfl
    rfl

/-- The override survives every step of the plan but the last. -/
private theorem overridden_advance {task : Deployment} {pending : Channel × DeploymentStep}
    (h : task.pending? = some pending) :
    task.advance.overridden = true ↔ task.overridden = true ∧ task.pending? ≠ some (.backup, .disarm) := by
  have hlt : task.step < plan.length := (List.getElem?_eq_some_iff.1 h).1
  have hlast : task.pending? = some (.backup, .disarm) ↔ task.step + 1 = plan.length :=
    (getElem?_plan_eq_last_iff task.step).trans Nat.succ_inj.symm
  rw [advance, finished, Ne, hlast]
  split
  · rename_i hends
    rw [decide_eq_true_iff] at hends
    exact iff_of_false Bool.false_ne_true fun hgoes => hgoes.2 (Nat.le_antisymm hlt hends)
  · rename_i hgoes
    rw [decide_eq_true_iff] at hgoes
    exact (and_iff_left fun hends => hgoes (Nat.le_of_eq hends.symm)).symm

end Deployment

namespace DeploymentTask

variable {δ : Type} [AntennaDriver δ] (limits : DeploymentLimits) (snapshot : Snapshot) (task : DeploymentTask δ)

/-! ### Single calls -/

private theorem update_of_queried {channel : Channel} (h : task.deployment.queried? = some channel) :
    (task.update snapshot).1 =
        (task.deployment.observe (AntennaDriver.status channel task.antennas.controllers).1).1 ∧
      (task.update snapshot).2.2.deployment =
        (task.deployment.observe (AntennaDriver.status channel task.antennas.controllers).1).2 := by
  rw [update, Deployment.refresh, h]
  exact ⟨rfl, rfl⟩

private theorem update_of_not_queried (h : task.deployment.queried? = none) : (task.update snapshot).1 = .ok := by
  rw [update, Deployment.refresh, h]

/-- An update fails exactly where its status query does, and then it learns nothing. -/
private theorem update_fails_iff :
    ((task.update snapshot).1 = .warning ↔ task.ReadFails) ∧
      ((task.update snapshot).1 = .warning → (task.update snapshot).2.2.deployment = task.deployment) := by
  cases hqueried : task.deployment.queried? with
  | none =>
    rw [update_of_not_queried snapshot task hqueried, ReadFails, hqueried]
    exact ⟨iff_of_false nofun nofun, nofun⟩
  | some channel =>
    have hfails : task.ReadFails ↔
        (AntennaDriver.status channel task.antennas.controllers).1.toBool = false := by
      rw [ReadFails, hqueried]
      exact ⟨fun ⟨_, hasked, h⟩ => Option.some.inj hasked ▸ h, fun h => ⟨channel, rfl, h⟩⟩
    obtain ⟨hresult, hdeployment⟩ := update_of_queried snapshot task hqueried
    rw [hfails, hresult, hdeployment]
    cases (AntennaDriver.status channel task.antennas.controllers).1 with
    | ok status => exact ⟨iff_of_false nofun nofun, nofun⟩
    | error error => exact ⟨iff_of_true rfl rfl, fun _ => rfl⟩

private theorem overridden_execute : (task.execute limits).deployment.overridden = true ↔
    task.deployment.overridden = true ∧ task.deployment.pending? ≠ some (.backup, .disarm) := by
  rcases task.execute_cases limits with ⟨hp, h⟩ | ⟨channel, step, _, hp, h, -⟩ <;> rw [h]
  · rw [hp]
    exact (and_iff_left nofun).symm
  · exact Deployment.overridden_advance hp

theorem informed_receive (call : Call) (h : task.deployment.Informed task.antennas.readings) :
    (task.receive limits call).deployment.Informed (task.receive limits call).antennas.readings := by
  cases call with
  | update snapshot => exact task.informed_update snapshot h
  | execute => exact task.informed_execute limits h
  | setOverride enable => exact ⟨h.lastStatus, h.inProgress, h.seen⟩
  | restart => exact ⟨h.lastStatus, h.inProgress, h.seen⟩

private theorem readings_receive (call : Call) :
    task.antennas.readings <+: (task.receive limits call).antennas.readings := by
  cases call with
  | update snapshot =>
    rcases task.update_cases snapshot with ⟨-, -, h⟩ | ⟨_, _, reading, _, -, -, h⟩
    · exact h ▸ List.prefix_rfl
    · rw [receive, h]
      exact List.prefix_append _ _
  | execute => exact (readings_execute limits task).symm ▸ List.prefix_rfl
  | setOverride enable => exact List.prefix_rfl
  | restart => exact List.prefix_rfl

/-! ### Runs -/

private theorem afterCalls_concat (calls : List Call) (call : Call) :
    task.afterCalls limits (calls ++ [call]) = (task.afterCalls limits calls).receive limits call := by
  rw [afterCalls, List.foldl_append]
  rfl

private theorem informed_afterCalls (calls : List Call) (h : task.deployment.Informed task.antennas.readings) :
    (task.afterCalls limits calls).deployment.Informed (task.afterCalls limits calls).antennas.readings := by
  induction calls using List.reverseRecOn with
  | nil => exact h
  | append_singleton calls call ih =>
    rw [afterCalls_concat]
    exact informed_receive limits _ call ih

private theorem readings_afterCalls (earlier later : List Call) :
    (task.afterCalls limits earlier).antennas.readings <+:
      (task.afterCalls limits (earlier ++ later)).antennas.readings := by
  induction later using List.reverseRecOn with
  | nil => exact (List.append_nil earlier).symm ▸ List.prefix_rfl
  | append_singleton later call ih =>
    rw [← List.append_assoc, afterCalls_concat]
    exact ih.trans (readings_receive limits _ call)

/-- One more call: the override is set by it, or it was set already and the call neither drops it nor executes the last
step of the plan. -/
private theorem insisted_concat_iff (calls : List Call) (call : Call) :
    task.Insisted limits (calls ++ [call]) ↔ call = .setOverride true ∨
      (task.Insisted limits calls ∧ call ≠ .setOverride false ∧
        (call = .execute → (task.afterCalls limits calls).deployment.pending? ≠ some (.backup, .disarm))) := by
  constructor
  · rintro ⟨before, since, hcalls, hkept, hplan⟩
    -- By the last call since the override was set, if there is one.
    induction since using List.reverseRecOn with
    | nil => exact Or.inl (List.append_inj_right' hcalls rfl |> List.singleton_inj.1)
    | append_singleton since last =>
      rw [← List.cons_append, ← List.append_assoc] at hcalls
      obtain ⟨rfl, hlast⟩ := List.append_inj' hcalls rfl
      obtain rfl := List.singleton_inj.1 hlast
      refine Or.inr ⟨⟨before, since, rfl, fun h => hkept (List.mem_append_left _ h), ?_⟩, ?_, ?_⟩
      · rintro early late rfl
        exact hplan early (late ++ [call]) (by rw [List.append_assoc, List.cons_append])
      · rintro rfl
        exact hkept (List.mem_append_right _ (List.mem_singleton_self _))
      · rintro rfl
        exact hplan since [] rfl
  · rintro (rfl | ⟨⟨before, since, rfl, hkept, hplan⟩, hdrop, hlast⟩)
    · exact ⟨calls, [], rfl, List.not_mem_nil, fun early late h => absurd h (by simp)⟩
    · refine ⟨before, since ++ [call], by simp, ?_, ?_⟩
      · rw [List.mem_append, List.mem_singleton]
        exact fun h => h.elim hkept fun h => hdrop h.symm
      · intro early late hsince
        -- The executed step is one of those before, or it is the new call.
        induction late using List.reverseRecOn with
        | nil =>
          obtain ⟨rfl, hcall⟩ := List.append_inj' hsince rfl
          exact hlast (List.singleton_inj.1 hcall)
        | append_singleton late last =>
          rw [← List.cons_append, ← List.append_assoc] at hsince
          exact hplan early late (List.append_inj' hsince rfl).1

theorem overridden_afterCalls (controllers : δ) (settings : Option SettingsStore) (calls : List Call) :
    ((start controllers settings).afterCalls limits calls).deployment.overridden = true ↔
      (start controllers settings).Insisted limits calls := by
  induction calls using List.reverseRecOn with
  | nil =>
    refine iff_of_false Bool.false_ne_true ?_
    rintro ⟨before, since, hcalls, -⟩
    exact List.append_ne_nil_of_right_ne_nil before (List.cons_ne_nil _ since) hcalls.symm
  | append_singleton calls call ih =>
    rw [afterCalls_concat, insisted_concat_iff, ← ih]
    cases call with
    | update snapshot =>
      rw [receive, overridden_update]
      simp
    | execute =>
      rw [receive, overridden_execute]
      simp
    | setOverride enable => cases enable <;> simp [receive, Deployment.setOverride]
    | restart => simp [receive, Deployment.restart]

private theorem get_seen_afterCalls (controllers : δ) (settings : Option SettingsStore) (calls : List Call)
    (slot : Fin 4) :
    ((start controllers settings).afterCalls limits calls).deployment.seen.get slot =
      ((start controllers settings).afterCalls limits calls).antennas.readings.any fun status =>
        status.deployed.get slot := by
  have hinformed := informed_afterCalls limits (start controllers settings) calls Deployment.informed_initial
  rw [hinformed.seen, AntennaStatus.get_everDeployed]

/-- The antenna task in any run of updates, executed steps and orders of the operator, whatever its controllers answer,
and one more update.  The antennas that it publishes, and knows, are those that some reading so far reports out, so that
an antenna that was known to be out is published.  The update warns exactly where its status query fails, and then the
task knows what it knew.  The antennas count as deployed where all are out and the override is off; the override is on
from the order to set it until the order to drop it or the last step of the plan, and all that time they do not count. -/
theorem publishes_readings (controllers : δ) (settings : Option SettingsStore) (calls : List Call)
    (snapshot : Snapshot) :
    let first := start controllers settings
    let task := first.afterCalls limits calls
    let result := (task.update snapshot).1
    let published := (task.update snapshot).2.1
    let next := (task.update snapshot).2.2
    (∀ slot, next.deployment.seen.get slot =
      next.antennas.readings.any fun status => status.deployed.get slot) ∧
    published.antennas = next.deployment.seen ∧
    (∀ earlier, earlier <+: calls → ∀ slot,
      (first.afterCalls limits earlier).deployment.seen.get slot = true → published.antennas.get slot = true) ∧
    (result = .warning ↔ task.ReadFails) ∧ (result = .warning → next.deployment = task.deployment) ∧
    (published.antennasDeployed = true ↔
      (∀ slot, published.antennas.get slot = true) ∧ next.deployment.overridden = false) ∧
    (next.deployment.overridden = true ↔ first.Insisted limits calls) ∧
    (first.Insisted limits calls → published.antennasDeployed = false) := by
  intro first task result published next
  obtain ⟨hwarns, hkeeps⟩ := task.update_fails_iff snapshot
  have hnext : next = first.afterCalls limits (calls ++ [.update snapshot]) :=
    (afterCalls_concat limits first calls (.update snapshot)).symm
  have hslot : ∀ slot, next.deployment.seen.get slot =
      next.antennas.readings.any fun status => status.deployed.get slot := by
    rw [hnext]
    exact get_seen_afterCalls limits controllers settings (calls ++ [.update snapshot])
  have hinsisted : next.deployment.overridden = true ↔ first.Insisted limits calls := by
    have hsame : next.deployment.overridden = task.deployment.overridden := task.overridden_update snapshot
    rw [hsame]
    exact overridden_afterCalls limits controllers settings calls
  have hdeployed : published.antennasDeployed = (published.antennas.all && !next.deployment.overridden) := rfl
  refine ⟨hslot, rfl, ?_, hwarns, hkeeps, ?_, hinsisted, fun h => ?_⟩
  · rintro earlier ⟨later, hcalls⟩ slot hseen
    have hreadings := readings_afterCalls limits first earlier (later ++ [.update snapshot])
    rw [← List.append_assoc, hcalls, ← hnext] at hreadings
    rw [get_seen_afterCalls, List.any_eq_true] at hseen
    obtain ⟨status, hstatus, hout⟩ := hseen
    exact (hslot slot).trans (List.any_eq_true.2 ⟨status, hreadings.subset hstatus, hout⟩)
  · rw [hdeployed, Bool.and_eq_true, AntennaFlags.all_iff, Bool.not_eq_true']
  · rw [hdeployed, hinsisted.2 h]
    exact Bool.and_false _

end DeploymentTask

end Spacecraft
