import Spacecraft.Computer.Commands
import Spacecraft.Proofs.Sail.Run

/-!
# The sail task on the computer

The hooks of the computer, the commands of its operator and a start of the computer do to the sail plan what the task
does by itself, with the settings of the computer (`RunsOn`).  The antennas and the policies share these settings.  Among
the requests to the power system of the computer there are power cycles, which alarms ask for at any time; all others are
for the sail.
-/

namespace Spacecraft

namespace PowerLog

/-- The requests in the order in which they were made, power cycles apart. -/
def switchings (log : PowerLog) : List PowerEvent := log.events.filter fun event => decide (event ≠ .powerCycle)

@[simp]
theorem switchings_recordCycles (n : Nat) (log : PowerLog) : (log.recordCycles n).switchings = log.switchings := by
  simp [switchings, events, recordCycles]

private theorem switchings_record {event : PowerEvent} (h : event ≠ .powerCycle) (log : PowerLog) :
    (log.record event).switchings = log.switchings ++ [event] := by
  simp [switchings, events, record, List.filter_append, h]

end PowerLog

/-- A step of the plan asks for no power cycle. -/
private theorem SailTask.ne_powerCycle {task : SailTask} {store : SettingsStore} {event : PowerEvent}
    (h : (task.execute store).1 = some event) : event ≠ .powerCycle := by
  have hmem : event ∈ plan := by
    unfold execute at h
    split at h
    · cases h
    · rename_i planned hplanned
      have heq : some planned = some event := by
        split at h <;> exact h
      exact List.mem_of_getElem? (hplanned.trans heq)
  rintro rfl
  revert hmem
  decide

/-- What the antennas store is not about the sail. -/
private theorem Deployment.settings_remember (deployment : Deployment) (store : SettingsStore) :
    (deployment.remember store).2 = store ∨
      ∃ change, SailSystem.SparesSail change ∧ (deployment.remember store).2 = (store.modify change).2.2 := by
  unfold remember
  split
  · exact Or.inr ⟨fun settings => { settings with antennaMask := settings.antennaMask ||| deployment.seen.toMask },
      fun _ => ⟨rfl, rfl⟩, rfl⟩
  · exact Or.inl rfl

namespace SailSystem

variable {π : Type}

/-- A computer carries the task out: with its own settings, and with its own power system. -/
structure RunsOn (system : SailSystem π) (c : Computer) : Prop where
  task : c.sail = system.task
  settings : c.settings = system.settings
  requests : c.power.switchings = system.requests

variable {system : SailSystem π} {c : Computer}

theorem RunsOn.absorb (h : system.RunsOn c) (reports : List Report) : system.RunsOn (c.absorb reports) :=
  ⟨h.task, h.settings, (PowerLog.switchings_recordCycles _ _).trans h.requests⟩

/-- The update of the computer is that of the task. -/
theorem RunsOn.update (h : system.RunsOn c) (snapshot : Snapshot) :
    Computer.updateSail.run snapshot c = (.ok, system.update snapshot, c) := by
  rw [SailSystem.update, ← h.task, ← h.settings]
  rfl

theorem RunsOn.openSail [PowerSystem π] (h : system.RunsOn c) (threshold : Duration) :
    (system.perform threshold .openSail).RunsOn c.openSail :=
  ⟨congrArg SailTask.openSail h.task, h.settings, h.requests⟩

/-- The action of the computer is a step of the task, under the same condition. -/
theorem RunsOn.execute [PowerSystem π] (h : system.RunsOn c) (snapshot : Snapshot) :
    Computer.openSailStep.condition snapshot c = .ofBool (system.task.condition c.config.sailThreshold snapshot) ∧
      system.execute.RunsOn (Computer.openSailStep.execute snapshot c).2 := by
  refine ⟨by rw [← h.task]; rfl, ?_⟩
  rcases hexecute : system.task.execute system.settings with ⟨event?, reports, settings, task⟩
  have honboard : c.sail.execute c.settings = (event?, reports, settings, task) := by
    rw [h.task, h.settings, hexecute]
  unfold Computer.openSailStep SailSystem.execute
  simp only [hexecute, honboard]
  apply RunsOn.absorb
  cases event? with
  | none => exact ⟨rfl, rfl, h.requests⟩
  | some event =>
    have hevent : event ≠ .powerCycle := SailTask.ne_powerCycle (congrArg Prod.fst hexecute)
    refine ⟨rfl, rfl, ?_⟩
    rw [← h.requests]
    exact PowerLog.switchings_record hevent c.power

/-- A policy put in force is a change of other settings. -/
theorem RunsOn.setPolicy [PowerSystem π] (h : system.RunsOn c) (threshold : Duration) (device : Device)
    (policy : Policy) :
    let change (settings : Settings) : Settings :=
      { settings with policies := settings.policies.set device policy }
    (system.perform threshold (.store change fun _ => ⟨rfl, rfl⟩)).RunsOn (c.setPolicy device policy) := by
  intro change
  unfold Computer.setPolicy
  apply RunsOn.absorb
  exact ⟨h.task, congrArg (fun store => (store.modify change).2.2) h.settings, h.requests⟩

/-- The antennas store other settings, or nothing. -/
theorem RunsOn.updateAntennas [PowerSystem π] (h : system.RunsOn c) (threshold : Duration) (snapshot : Snapshot) :
    let next := (Computer.updateAntennas.run snapshot c).2.2
    system.RunsOn next ∨ ∃ change spares, (system.perform threshold (.store change spares)).RunsOn next := by
  intro next
  have hnext {later : SailSystem π} (htask : later.task = system.task) (hrequests : later.requests = system.requests)
      (hsettings : ((c.deployment.refresh c.antennas).2.2.2.remember system.settings).2 = later.settings) :
      later.RunsOn next := by
    rw [← h.settings] at hsettings
    apply RunsOn.absorb
    exact ⟨h.task.trans htask.symm, hsettings,
      (PowerLog.switchings_recordCycles _ _).trans (h.requests.trans hrequests.symm)⟩
  rcases (c.deployment.refresh c.antennas).2.2.2.settings_remember system.settings with
    hkept | ⟨change, spares, hchanged⟩
  · exact Or.inl (hnext rfl rfl hkept)
  · exact Or.inr ⟨change, spares, hnext rfl rfl hchanged⟩

/-- A start of the computer is that of the task, which loads the settings and then counts the boot. -/
theorem RunsOn.boot [PowerSystem π] (h : system.RunsOn c) (threshold : Duration) (config : MissionConfig) :
    (system.after threshold [.boot, .countBoot]).RunsOn (Computer.boot c.hardware config) where
  task := rfl
  settings := by
    show (Computer.bootSettings c.settings.bank).1 = _
    rw [h.settings]
    rfl
  requests := (PowerLog.switchings_recordCycles _ _).trans h.requests

end SailSystem

end Spacecraft
