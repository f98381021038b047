import Spacecraft.Proofs.Sail.Run

/-!
# The sail plan in any run

The requests since the plan began anew are its first ones, as many of them as steps were executed, and the order of the
operator stands until the last of them (`onPlan_after`).  A finished plan has switched both knives off, wherever earlier
runs of it were broken off (`OnPlan.knife_of_finished`).  `burns_on_plan` says what every operation does in every run.
-/

namespace Spacecraft

/-- What a request tells the knife of a circuit, if it is meant for it. -/
def PowerEvent.knife? (circuit : BurnCircuit) : PowerEvent → Option Bool
  | .thermalKnife other on => if other = circuit then some on else none
  | _ => none

/-- What the knife of a circuit was told last. -/
def PowerEvent.lastKnife? (circuit : BurnCircuit) (requests : List PowerEvent) : Option Bool :=
  (requests.filterMap (knife? circuit)).getLast?

private theorem PowerEvent.lastKnife?_append (circuit : BurnCircuit) (earlier later : List PowerEvent) :
    lastKnife? circuit (earlier ++ later) = (lastKnife? circuit later).or (lastKnife? circuit earlier) := by
  rw [lastKnife?, List.filterMap_append, List.getLast?_append]
  rfl

/-- The number of executed steps from which on the knife of a circuit is on. -/
def SailTask.heats : BurnCircuit → Nat
  | .main => 1
  | .redundant => 4

/-- The plan switches each knife on once and off two steps later. -/
private theorem SailTask.lastKnife?_take (circuit : BurnCircuit) {step : Nat} (h : step ≤ 6) :
    PowerEvent.lastKnife? circuit (plan.take step) =
      if step < heats circuit then none else some (decide (step < heats circuit + 2)) := by
  have hall : ∀ step ≤ 6, PowerEvent.lastKnife? circuit (plan.take step) =
      if step < heats circuit then none else some (decide (step < heats circuit + 2)) := by
    cases circuit <;> decide
  exact hall step h

namespace SailSystem

section OnPlan

variable {π : Type} {before : List PowerEvent} {ordered : Bool} {system next : SailSystem π}

/-- All steps so far made their requests, in the order of the plan, after those from before the plan began anew; while it
is unfinished, it runs by order of the operator exactly if it began so. -/
structure OnPlan (before : List PowerEvent) (ordered : Bool) (system : SailSystem π) : Prop where
  step_le : system.task.step ≤ 6
  requests : system.requests = before ++ SailTask.plan.take system.task.step
  forced : system.task.forced = (ordered && decide (system.task.step < 6))

private theorem onPlan_of_task (h : system.task = ⟨0, ordered⟩) : system.OnPlan system.requests ordered where
  step_le := by
    rw [h]
    exact Nat.zero_le _
  requests := by
    rw [h]
    exact (List.append_nil _).symm
  forced := by
    rw [h]
    exact (Bool.and_true _).symm

private theorem OnPlan.stepped (h : system.OnPlan before ordered) (hstep : system.Stepped next) :
    next.OnPlan before ordered := by
  obtain ⟨event, hevent, hrequests⟩ := hstep.requests
  have hlt : system.task.step < 6 := (List.getElem?_eq_some_iff.1 hevent).1
  constructor
  case step_le =>
    rw [hstep.task]
    exact hlt
  case requests =>
    rw [hstep.task, hrequests, h.requests, List.take_add_one, hevent, List.append_assoc]
    rfl
  case forced =>
    have hroom : system.task.step + 1 < 6 ↔ system.task.step < 5 := Nat.succ_lt_succ_iff
    rw [hstep.task, h.forced, decide_eq_true hlt, Bool.and_true, decide_eq_decide.2 hroom]

/-- Until the plan reaches a knife, the knife is as it was before. -/
theorem OnPlan.lastKnife? (h : system.OnPlan before ordered) (circuit : BurnCircuit) :
    PowerEvent.lastKnife? circuit system.requests =
      if system.task.step < SailTask.heats circuit then PowerEvent.lastKnife? circuit before
      else some (decide (system.task.step < SailTask.heats circuit + 2)) := by
  rw [h.requests, PowerEvent.lastKnife?_append, SailTask.lastKnife?_take circuit h.step_le]
  split <;> rfl

theorem OnPlan.knife_of_finished (h : system.OnPlan before ordered) (hfinished : system.task.step = 6)
    (circuit : BurnCircuit) : PowerEvent.lastKnife? circuit system.requests = some false := by
  rw [h.lastKnife? circuit, hfinished]
  cases circuit <;> rfl

/-- The operation is a pass that executes the last step. -/
def Finishes (threshold : Duration) (operation : Operation) (system : SailSystem π) : Prop :=
  system.task.step = 5 ∧ ∃ snapshot, operation = .pass snapshot ∧ system.MayBurn threshold snapshot.time

end OnPlan

/-- The last time that the plan began anew, it was by an order of the operator. -/
def orderedLast (operations : List Operation) : Bool :=
  (upToRestart operations).getLast?.any fun operation => !operation.boots

variable {π : Type} [PowerSystem π] (threshold : Duration)

/-- In a run the task is always on its plan since the last operation with which the plan began anew. -/
theorem onPlan_after (power : π) (settings : SettingsStore) (operations : List Operation) :
    ((start power settings).after threshold operations).OnPlan
      ((start power settings).after threshold (upToRestart operations)).requests (orderedLast operations) := by
  -- By the last operation: either the plan begins anew with it, or the last restart is the same as before it.
  induction operations using List.reverseRecOn with
  | nil => exact onPlan_of_task rfl
  | append_singleton operations operation ih =>
    rw [orderedLast, upToRestart_concat]
    cases hr : operation.restarts with
    | true =>
      rw [if_pos rfl, List.getLast?_concat, after_concat]
      exact onPlan_of_task (perform_of_restarts threshold _ hr).1
    | false =>
      rw [if_neg Bool.false_ne_true, after_concat]
      rcases perform_cases threshold ((start power settings).after threshold operations) hr with
        hstep | ⟨htask, hrequests⟩
      · exact ih.stepped hstep
      · refine ⟨?_, ?_, ?_⟩
        · exact htask ▸ ih.step_le
        · exact hrequests ▸ htask ▸ ih.requests
        · exact htask ▸ ih.forced

/-- What the settings say about the sail changes when the last step is executed, and not otherwise, boots apart. -/
private theorem sail_perform (system : SailSystem π) {operation : Operation} (hboot : operation ≠ .boot) :
    let sail := system.settings.current
    let later := (system.perform threshold operation).settings.current
    (system.Finishes threshold operation →
        later.sailOpened = true ∧ later.sailAttempts.toNat = min (sail.sailAttempts.toNat + 1) 255) ∧
      (¬ system.Finishes threshold operation →
        later.sailOpened = sail.sailOpened ∧ later.sailAttempts = sail.sailAttempts) := by
  intro sail later
  cases operation with
  | pass snapshot =>
    rcases system.pass_cases threshold snapshot with ⟨hmay, hstep⟩ | ⟨hmay, hrest⟩
    · have hsettings : (system.perform threshold (.pass snapshot)).settings = _ := hstep.settings
      refine ⟨fun hfinishes => ?_, fun hgoes => ?_⟩
      · rw [if_pos hfinishes.1] at hsettings
        have hlater : later = SailTask.noteOpened sail := congrArg SettingsStore.current hsettings
        rw [hlater]
        exact ⟨rfl, Counter.toNat_saturatingAdd _ _⟩
      · rw [if_neg fun hlast => hgoes ⟨hlast, snapshot, rfl, hmay⟩] at hsettings
        have hlater : later = sail := congrArg SettingsStore.current hsettings
        rw [hlater]
        exact ⟨rfl, rfl⟩
    · have hlater : later = sail := congrArg (fun next => next.settings.current) hrest
      rw [hlater]
      refine ⟨fun ⟨_, other, heq, hnow⟩ => ?_, fun _ => ⟨rfl, rfl⟩⟩
      cases heq
      exact absurd hnow hmay
  | boot => exact absurd rfl hboot
  | openSail => exact ⟨fun ⟨_, _, heq, _⟩ => (nomatch heq), fun _ => ⟨rfl, rfl⟩⟩
  | disturb change => exact ⟨fun ⟨_, _, heq, _⟩ => (nomatch heq), fun _ => ⟨rfl, rfl⟩⟩
  | countBoot => exact ⟨fun ⟨_, _, heq, _⟩ => (nomatch heq), fun _ => ⟨rfl, rfl⟩⟩
  | store change spares => exact ⟨fun ⟨_, _, heq, _⟩ => (nomatch heq), fun _ => spares _⟩

/-- The sail task in any run, whatever the power system answers and whatever the chips do, and one more operation.  The
requests since the plan began anew are its first ones, one for each executed step.  A pass makes the next request where
the plan is unfinished and was ordered by the operator, or its time has come and the sail was not opened; else it
changes nothing.  The settings note that the sail was opened, and count it, with each pass that executes the sixth step
and with nothing else, except that a boot loads what the chips hold.  When the plan is finished, each knife was told last
to be off. -/
theorem burns_on_plan (power : π) (settings : SettingsStore) (operations : List Operation) (snapshot : Snapshot) :
    let began := (start power settings).after threshold (upToRestart operations)
    let system := (start power settings).after threshold operations
    let next := system.pass threshold snapshot
    let may := system.MayBurn threshold snapshot.time
    (system.task.step ≤ 6 ∧ system.requests = began.requests ++ SailTask.plan.take system.task.step) ∧
    (system.task.forced = true ↔ orderedLast operations = true ∧ system.task.step < 6) ∧
    (system.Stepped next ↔ may) ∧ (next = system ↔ ¬ may) ∧
    (∀ operation, operation ≠ .boot →
      let sail := system.settings.current
      let later := (system.perform threshold operation).settings.current
      (system.Finishes threshold operation →
          later.sailOpened = true ∧ later.sailAttempts.toNat = min (sail.sailAttempts.toNat + 1) 255) ∧
        (¬ system.Finishes threshold operation →
          later.sailOpened = sail.sailOpened ∧ later.sailAttempts = sail.sailAttempts)) ∧
    (system.task.step = 6 → ∀ circuit, PowerEvent.lastKnife? circuit system.requests = some false) := by
  intro began system next may
  have hplan : system.OnPlan began.requests (orderedLast operations) := onPlan_after threshold power settings operations
  refine ⟨⟨hplan.step_le, hplan.requests⟩, ?_, ?_, ?_, fun _ hboot => system.sail_perform threshold hboot,
    hplan.knife_of_finished⟩
  · rw [hplan.forced, Bool.and_eq_true, decide_eq_true_iff]
  · rcases system.pass_cases threshold snapshot with ⟨hmay, hstep⟩ | ⟨hmay, hrest⟩
    · exact iff_of_true hstep hmay
    · exact iff_of_false (fun hstep => hstep.ne hrest) hmay
  · rcases system.pass_cases threshold snapshot with ⟨hmay, hstep⟩ | ⟨hmay, hrest⟩
    · exact iff_of_false hstep.ne (not_not_intro hmay)
    · exact iff_of_true hrest hmay

end SailSystem

end Spacecraft
