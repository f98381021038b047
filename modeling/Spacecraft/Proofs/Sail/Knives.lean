import Spacecraft.Proofs.Sail.Plan

/-!
# The two knives of the sail

The plan itself never heats both knives: the main one is off again before the redundant one is switched on
(`OnPlan.heated_iff`).  But a plan that begins anew does not switch off what its last run left on.  Where that run was
broken off after the redundant knife was switched on, the new one heats the main knife beside it
(`both_heated_iff`, `reopening_heats_both`).
-/

namespace Spacecraft

namespace SailSystem

section Heated

variable {π : Type}

/-- The knife of a circuit was told last to be on. -/
def Heated (circuit : BurnCircuit) (system : SailSystem π) : Prop :=
  PowerEvent.lastKnife? circuit system.requests = some true

instance (circuit : BurnCircuit) (system : SailSystem π) : Decidable (system.Heated circuit) :=
  inferInstanceAs (Decidable (_ = _))

/-- A knife is on for two steps of the plan, and before them if it was on when the plan began. -/
theorem OnPlan.heated_iff {began system : SailSystem π} {ordered : Bool} (h : system.OnPlan began.requests ordered)
    (circuit : BurnCircuit) : system.Heated circuit ↔
      system.task.step < SailTask.heats circuit ∧ began.Heated circuit ∨
        SailTask.heats circuit ≤ system.task.step ∧ system.task.step < SailTask.heats circuit + 2 := by
  unfold Heated
  rw [h.lastKnife? circuit]
  split
  · rename_i hbefore
    simp [hbefore, Nat.not_le.2 hbefore]
  · rename_i hreached
    simp [hreached, Nat.not_lt.1 hreached]

end Heated

variable {π : Type} [PowerSystem π] (threshold : Duration)

/-- Some operation let the plan begin anew when it had executed four or five steps. -/
def BrokenOff (operations : List Operation) (system : SailSystem π) : Prop :=
  ∃ earlier operation later, operations = earlier ++ operation :: later ∧ operation.restarts = true ∧
    4 ≤ (system.after threshold earlier).task.step ∧ (system.after threshold earlier).task.step < 6

variable {threshold}

private theorem BrokenOff.concat {operations : List Operation} {system : SailSystem π}
    (h : system.BrokenOff threshold operations) (operation : Operation) :
    system.BrokenOff threshold (operations ++ [operation]) := by
  obtain ⟨earlier, restart, later, rfl, hrest⟩ := h
  exact ⟨earlier, restart, later ++ [operation], by rw [List.append_assoc, List.cons_append], hrest⟩

/-- A plan begins with the redundant knife on only after one was broken off. -/
private theorem brokenOff_of_heated (power : π) (settings : SettingsStore) (operations : List Operation)
    (h : ((start power settings).after threshold (upToRestart operations)).Heated .redundant) :
    (start power settings).BrokenOff threshold operations := by
  induction operations using List.reverseRecOn with
  | nil => cases h
  | append_singleton operations operation ih =>
    rw [upToRestart_concat] at h
    cases hr : operation.restarts with
    | false =>
      rw [hr, if_neg Bool.false_ne_true] at h
      exact (ih h).concat operation
    | true =>
      rw [hr, if_pos rfl, after_concat, Heated, (perform_of_restarts threshold _ hr).2] at h
      -- The knife was on before the operation: since the last run of the plan, or since earlier ones.
      rcases ((onPlan_after threshold power settings operations).heated_iff .redundant).1 h with
        ⟨-, hbegan⟩ | ⟨hon, hoff⟩
      · exact (ih hbegan).concat operation
      · exact ⟨operations, operation, [], rfl, hr, hon, hoff⟩

variable (threshold)

/-- In any run both knives are on exactly if the plan began with the redundant one on and has since executed its first
step and not its third, or none, and it began with the main one on, too.  That takes an order of the operator, or a boot,
between the fourth and the sixth step of some run of the plan: without one, no more than one knife is ever on. -/
theorem both_heated_iff (power : π) (settings : SettingsStore) (operations : List Operation) :
    let began := (start power settings).after threshold (upToRestart operations)
    let system := (start power settings).after threshold operations
    (system.Heated .main ∧ system.Heated .redundant ↔
      began.Heated .redundant ∧
        (system.task.step = 1 ∨ system.task.step = 2 ∨ system.task.step = 0 ∧ began.Heated .main)) ∧
    (¬ (start power settings).BrokenOff threshold operations → ¬ (system.Heated .main ∧ system.Heated .redundant)) := by
  intro began system
  have hplan : system.OnPlan began.requests _ := onPlan_after threshold power settings operations
  have hmain : system.Heated .main ↔ system.task.step = 0 ∧ began.Heated .main ∨
      system.task.step = 1 ∨ system.task.step = 2 := by
    rw [hplan.heated_iff, SailTask.heats]
    have hrange : (1 ≤ system.task.step ∧ system.task.step < 1 + 2) ↔ system.task.step = 1 ∨ system.task.step = 2 := by
      omega
    rw [hrange, Nat.lt_one_iff]
  have hredundant : system.Heated .redundant ↔ system.task.step < 4 ∧ began.Heated .redundant ∨
      4 ≤ system.task.step ∧ system.task.step < 6 := hplan.heated_iff .redundant
  have hboth : system.Heated .main ∧ system.Heated .redundant ↔ began.Heated .redundant ∧
      (system.task.step = 1 ∨ system.task.step = 2 ∨ system.task.step = 0 ∧ began.Heated .main) := by
    rw [hmain, hredundant]
    constructor
    · rintro ⟨hstep, ⟨-, hbegan⟩ | hstep'⟩
      · refine ⟨hbegan, ?_⟩
        rcases hstep with hzero | hone | htwo
        · exact Or.inr (Or.inr hzero)
        · exact Or.inl hone
        · exact Or.inr (Or.inl htwo)
      · omega
    · rintro ⟨hbegan, hone | htwo | ⟨hzero, hmain⟩⟩
      · exact ⟨Or.inr (Or.inl hone), Or.inl ⟨by omega, hbegan⟩⟩
      · exact ⟨Or.inr (Or.inr htwo), Or.inl ⟨by omega, hbegan⟩⟩
      · exact ⟨Or.inl ⟨hzero, hmain⟩, Or.inl ⟨by omega, hbegan⟩⟩
  exact ⟨hboth, fun hunbroken h => hunbroken (brokenOff_of_heated power settings operations (hboth.1 h).1)⟩

/-- Four steps of the plan, an order to open the sail, and the first step once more: both knives are on. -/
theorem reopening_heats_both :
    let system := (start PowerLog.empty ⟨.blank 72, .initial⟩).after .zero
      (.replicate 4 (.pass .initial) ++ [.openSail, .pass .initial])
    system.Heated .main ∧ system.Heated .redundant := by
  decide

end SailSystem

end Spacecraft
