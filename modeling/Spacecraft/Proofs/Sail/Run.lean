import Mathlib.Data.List.DropRight
import Mathlib.Data.List.Induction
import Spacecraft.Sail

/-!
# Runs of the sail task

Passes of the sail task, with an operator who orders the sail to be opened as he likes, with a power system that may
answer anything and chips that may do anything, with others who change the settings, and with a computer that starts
again at any time.  The requests to the power system are written down where they arrive.  A pass executes one step of the
plan or changes nothing at all (`pass_cases`); nothing else makes a request.
-/

namespace Spacecraft

/-- The sail task with what it works on: the power system, the requests that reached it in order, and the settings. -/
structure SailSystem (π : Type) where
  task : SailTask
  power : π
  requests : List PowerEvent
  settings : SettingsStore

namespace SailSystem

/-- A change of the settings leaves alone what they say about the sail. -/
def SparesSail (change : Settings → Settings) : Prop :=
  ∀ settings, (change settings).sailOpened = settings.sailOpened ∧
    (change settings).sailAttempts = settings.sailAttempts

/-- What happens to the sail task. -/
inductive Operation where
  | pass (snapshot : Snapshot)
  | openSail
  /-- The chips of the settings change, or begin or cease to refuse accesses. -/
  | disturb (change : ChipBank → ChipBank)
  /-- The computer starts again and loads the settings from the chips. -/
  | boot
  /-- The boot is counted in the settings. -/
  | countBoot
  /-- Somebody else changes the settings. -/
  | store (change : Settings → Settings) (spares : SparesSail change)

/-- The plan begins anew with the operation. -/
def Operation.restarts : Operation → Bool
  | .openSail | .boot => true
  | .pass _ | .disturb _ | .countBoot | .store _ _ => false

/-- The computer starts again with the operation. -/
def Operation.boots : Operation → Bool
  | .boot => true
  | .openSail | .pass _ | .disturb _ | .countBoot | .store _ _ => false

variable {π : Type}

/-- The task at its start. -/
def start (power : π) (settings : SettingsStore) : SailSystem π := ⟨.initial, power, [], settings⟩

/-- Fill in the sail part of the snapshot. -/
def update (snapshot : Snapshot) (system : SailSystem π) : Snapshot :=
  system.task.publish system.settings.current snapshot

/-- The computer starts again: the task forgets how far it has come, and the settings are loaded. -/
def boot (system : SailSystem π) : SailSystem π :=
  { system with task := .initial, settings := (SettingsStore.load system.settings.bank).1 }

variable [PowerSystem π]

/-- Execute the pending step, whatever the power system answers. -/
def execute (system : SailSystem π) : SailSystem π :=
  let (event, _, settings, task) := system.task.execute system.settings
  match event with
  | none => { system with settings, task }
  | some event => ⟨task, (PowerSystem.request event system.power).2, system.requests ++ [event], settings⟩

/-- The update, and after it a step of the plan if the condition holds. -/
def pass (threshold : Duration) (snapshot : Snapshot) (system : SailSystem π) : SailSystem π :=
  if system.task.condition threshold (system.update snapshot) then system.execute else system

/-- Let something happen to the task. -/
def perform (threshold : Duration) (operation : Operation) (system : SailSystem π) : SailSystem π :=
  match operation with
  | .pass snapshot => system.pass threshold snapshot
  | .openSail => { system with task := system.task.openSail }
  | .disturb change => { system with settings := { system.settings with bank := change system.settings.bank } }
  | .boot => system.boot
  | .countBoot => { system with settings := system.settings.registerBoot.2 }
  | .store change _ => { system with settings := (system.settings.modify change).2.2 }

/-- The task after operations in order. -/
def after (threshold : Duration) (operations : List Operation) (system : SailSystem π) : SailSystem π :=
  operations.foldl (fun system operation => system.perform threshold operation) system

/-- The operations up to the last one with which the plan began anew. -/
def upToRestart (operations : List Operation) : List Operation :=
  operations.rdropWhile fun operation => !operation.restarts

section Steps

omit [PowerSystem π]

/-- A pass may execute a step: the plan is unfinished, and either the operator ordered it to run, or its time has come
and the sail was not opened. -/
def MayBurn (threshold : Duration) (time : Duration) (system : SailSystem π) : Prop :=
  system.task.step < 6 ∧
    (system.task.forced = true ∨
      threshold ≤ time ∧ system.settings.current.sailOpened = false)

/-- The next request of the plan was made and its step counted; with the last step the order of the operator is carried
out, and the settings note it. -/
structure Stepped (system next : SailSystem π) : Prop where
  requests : ∃ event, SailTask.plan[system.task.step]? = some event ∧ next.requests = system.requests ++ [event]
  task : next.task = ⟨system.task.step + 1, system.task.forced && decide (system.task.step < 5)⟩
  settings : next.settings =
    if system.task.step = 5 then (system.settings.modify SailTask.noteOpened).2.2 else system.settings

theorem Stepped.ne {system next : SailSystem π} (h : system.Stepped next) : next ≠ system := by
  rintro rfl
  have hstep := congrArg SailTask.step h.task
  exact Nat.succ_ne_self _ hstep.symm

end Steps

variable (threshold : Duration) (system : SailSystem π)

theorem stepped_execute (h : system.task.step < 6) : system.Stepped system.execute := by
  have hevent : SailTask.plan[system.task.step]? = some SailTask.plan[system.task.step] :=
    List.getElem?_eq_getElem h
  obtain ⟨reports, heq⟩ := SailTask.execute_of_pending system.settings hevent
  rw [execute, heq]
  exact ⟨⟨_, hevent, rfl⟩, rfl, rfl⟩

/-- A pass executes a step where it may, and changes nothing where it may not. -/
theorem pass_cases (snapshot : Snapshot) :
    (system.MayBurn threshold snapshot.time ∧ system.Stepped (system.pass threshold snapshot)) ∨
      (¬ system.MayBurn threshold snapshot.time ∧ system.pass threshold snapshot = system) := by
  have hmay : system.task.condition threshold (system.update snapshot) = true ↔
      system.MayBurn threshold snapshot.time := SailTask.condition_publish_iff
  rw [pass]
  split
  · rename_i hcondition
    have hnow := hmay.1 hcondition
    exact Or.inl ⟨hnow, system.stepped_execute hnow.1⟩
  · rename_i hcondition
    exact Or.inr ⟨fun hnow => hcondition (hmay.2 hnow), rfl⟩

/-- An operation with which the plan does not begin anew executes a step, or it leaves the task and the requests
alone. -/
theorem perform_cases {operation : Operation} (hr : operation.restarts = false) :
    system.Stepped (system.perform threshold operation) ∨
      ((system.perform threshold operation).task = system.task ∧
        (system.perform threshold operation).requests = system.requests) := by
  cases operation with
  | pass snapshot =>
    rcases system.pass_cases threshold snapshot with ⟨-, hstep⟩ | ⟨-, hrest⟩
    · exact Or.inl hstep
    · refine Or.inr ⟨?_, ?_⟩
      · exact congrArg SailSystem.task hrest
      · exact congrArg SailSystem.requests hrest
  | disturb change => exact Or.inr ⟨rfl, rfl⟩
  | countBoot => exact Or.inr ⟨rfl, rfl⟩
  | store change spares => exact Or.inr ⟨rfl, rfl⟩
  | openSail => cases hr
  | boot => cases hr

/-- The plan begins anew without a request, and by an order of the operator or without one. -/
theorem perform_of_restarts {operation : Operation} (hr : operation.restarts = true) :
    (system.perform threshold operation).task = ⟨0, !operation.boots⟩ ∧
      (system.perform threshold operation).requests = system.requests := by
  cases operation with
  | openSail => exact ⟨rfl, rfl⟩
  | boot => exact ⟨rfl, rfl⟩
  | pass snapshot => cases hr
  | disturb change => cases hr
  | countBoot => cases hr
  | store change spares => cases hr

omit [PowerSystem π] in
theorem upToRestart_concat (operations : List Operation) (operation : Operation) :
    upToRestart (operations ++ [operation]) =
      if operation.restarts then operations ++ [operation] else upToRestart operations := by
  rw [upToRestart, List.rdropWhile_concat]
  cases operation.restarts <;> rfl

theorem after_concat (operations : List Operation) (operation : Operation) :
    system.after threshold (operations ++ [operation]) =
      (system.after threshold operations).perform threshold operation := by
  unfold after
  rw [List.foldl_append]
  rfl

end SailSystem

end Spacecraft
