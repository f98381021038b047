import Spacecraft.Config.Mission
import Spacecraft.Fault.Counters
import Spacecraft.Power
import Spacecraft.Settings.Store
import Spacecraft.Snapshot

/-!
# Opening the sail

The sail is burnt free with the main circuit and then with the redundant one; each heats its knife, fires its burn
switch and lets the knife cool.  A pass executes at most one step.  The last step puts into the settings that the sail
was opened.
-/

namespace Spacecraft

/-- How far the opening of the sail has come. -/
structure SailTask where
  /-- The number of steps of the plan that were executed. -/
  step : Nat
  /-- The operator wants the plan to run now. -/
  forced : Bool
deriving DecidableEq

namespace SailTask

/-- Nothing done, nothing asked for. -/
def initial : SailTask := ⟨0, false⟩

instance : Inhabited SailTask := ⟨initial⟩

/-- The name of the update. -/
def updateName : String := "Sail state"

/-- The name of the action. -/
def actionName : String := "Open sail"

/-- The requests of one circuit. -/
def circuitPlan (circuit : BurnCircuit) : List PowerEvent :=
  [.thermalKnife circuit true, .burnSwitch circuit .sail, .thermalKnife circuit false]

/-- The requests of the whole plan. -/
def plan : List PowerEvent := circuitPlan .main ++ circuitPlan .redundant

/-- Run the plan from its start, even if the sail was reported open. -/
def openSail (_ : SailTask) : SailTask := ⟨0, true⟩

/-- Fill in the sail part of the snapshot. -/
def publish (task : SailTask) (settings : Settings) (snapshot : Snapshot) : Snapshot :=
  { snapshot with sailOpened := settings.sailOpened && !task.forced, sailAttempts := settings.sailAttempts }

/-- A step may be executed: at once where the plan is forced, else from the threshold on. -/
def condition (threshold : Duration) (snapshot : Snapshot) (task : SailTask) : Bool :=
  decide (task.step < plan.length) &&
    (task.forced || (decide (threshold ≤ snapshot.time) && !snapshot.sailOpened))

/-- Note in the settings that the sail was opened once more. -/
def noteOpened (settings : Settings) : Settings :=
  { settings with sailOpened := true, sailAttempts := Counter.saturatingAdd settings.sailAttempts 1 }

/-- Execute the next step: the request it makes, if any, and what it does to the settings. -/
def execute (store : SettingsStore) (task : SailTask) : Option PowerEvent × List Report × SettingsStore × SailTask :=
  match plan[task.step]? with
  | none => (none, [], store, task)
  | some event =>
    if task.step + 1 < plan.length then (some event, [], store, { task with step := task.step + 1 })
    else
      let (_, reports, store) := store.modify noteOpened
      (some event, reports, store, ⟨task.step + 1, false⟩)

private theorem length_plan : plan.length = 6 := rfl

/-- A step may be executed while the plan is unfinished, when the operator wants it, or when it is time and the sail was
not opened. -/
theorem condition_publish_iff {threshold : Duration} {task : SailTask} {settings : Settings} {snapshot : Snapshot} :
    task.condition threshold (task.publish settings snapshot) = true ↔
      task.step < 6 ∧ (task.forced = true ∨
        threshold ≤ snapshot.time ∧ settings.sailOpened = false) := by
  rw [condition, publish, length_plan]
  cases task.forced <;> simp

/-- An executed step makes its request; the last one notes that the sail was opened, and no other changes the
settings. -/
theorem execute_of_pending (store : SettingsStore) {task : SailTask} {event : PowerEvent}
    (h : plan[task.step]? = some event) : ∃ reports,
    task.execute store = (some event, reports, if task.step = 5 then (store.modify noteOpened).2.2 else store,
      ⟨task.step + 1, task.forced && decide (task.step < 5)⟩) := by
  have hlt : task.step < 6 := (List.getElem?_eq_some_iff.1 h).1
  rw [execute, h, length_plan]
  by_cases hlast : task.step = 5
  · simp [hlast]
  · have hmore : task.step < 5 := by omega
    have hroom : task.step + 1 < 6 := by omega
    simp [hlast, hmore, hroom]

end SailTask

end Spacecraft
