import Spacecraft.Computer.Commands
import Spacecraft.Proofs.Clock.Restart
import Spacecraft.Proofs.Experiment.Preserving
import Spacecraft.Proofs.Mission.Hooks

/-!
# What a computer keeps for its next boot

On three working chips every change of the settings reaches all of them (`SettingsStore.Stored`).  A computer whose
settings are stored, whose policies in force are those of the settings and whose clock is saved in its files
(`Computer.Steady`) stays so, whatever its hooks do (`Steady.runOnce`) and whatever its operator asks for.
-/

namespace Spacecraft

/-! ### Settings -/

namespace SettingsStore

/-- All chips work and hold the settings in force. -/
structure Stored (store : SettingsStore) : Prop where
  working (i : Fin 3) : working store.bank i = true
  record (i : Fin 3) : record store.bank i = store.current.encode

variable {store : SettingsStore}

/-- A change of the settings reaches all chips that work, whatever they held before. -/
theorem stored_modify (h : ∀ i, working store.bank i = true) (change : Settings → Settings) :
    (store.modify change).2.2.Stored where
  working i := working_modify.trans (h i)
  record i := by
    rw [record_modify, if_pos (h i)]
    rfl

/-- The settings in force are loaded. -/
theorem Stored.current_load (h : store.Stored) : (load store.bank).1.current = store.current := by
  have hload := current_load_of_two (i := 0) (j := 1) (by decide) (h.working 0) (h.working 1)
    ((h.record 1).trans (h.record 0).symm)
  rw [hload, h.record, Settings.ofRecord?_encode]
  rfl

end SettingsStore

/-! ### Tasks -/

/-- A correction moves the clock once at most. -/
theorem DriftCorrection.execute_cases {κ : Type} [SettableClock κ] (task : DriftCorrection)
    (external : Except DeviceError Duration) (snapshot : Snapshot) (clock : κ) :
    (task.execute external snapshot clock).2.1 = clock ∨
      ∃ point, (task.execute external snapshot clock).2.1 = (SettableClock.set point clock).2 := by
  unfold execute
  cases external with
  | error e => exact Or.inl rfl
  | ok external =>
    simp only
    split
    · exact Or.inl rfl
    · split
      · exact Or.inl rfl
      · split
        · rename_i corrected _ _
          refine Or.inr ⟨.ofDuration corrected, ?_⟩
          rcases SettableClock.set (.ofDuration corrected) clock with ⟨_ | _, _⟩ <;> rfl
        · exact Or.inl rfl

/-- A step of the sail plan notes in the settings that the sail was opened, or leaves them alone. -/
private theorem SailTask.settings_execute (task : SailTask) (store : SettingsStore) :
    (task.execute store).2.2.1 = store ∨ (task.execute store).2.2.1 = (store.modify noteOpened).2.2 := by
  unfold execute
  split
  · exact Or.inl rfl
  · split
    · exact Or.inl rfl
    · exact Or.inr rfl

namespace MissionThread

variable {ω : Type} {pass : ω → ω}

/-- The mission thread changes the world by passes only. -/
private theorem world_step {thread thread' : MissionThread} {control control' : LoopControl} {world world' : ω}
    (h : step pass thread control world = some (thread', control', world')) : world' = world ∨ world' = pass world := by
  cases thread with
  | waiting =>
    simp only [step, Option.map_eq_some_iff] at h
    obtain ⟨_, -, heq⟩ := h
    cases heq
    exact Or.inl rfl
  | running =>
    cases h
    exact Or.inr rfl
  | completing =>
    cases h
    exact Or.inl rfl
  | sleeping =>
    simp only [step] at h
    split at h
    · cases h
      exact Or.inl rfl
    · cases h
  | stopped => cases h

/-- What a pass does not break, the mission thread does not break. -/
private theorem invariant_settle {motive : ω → Prop} (hpass : ∀ world, motive world → motive (pass world)) (limit : Nat)
    (thread : MissionThread) (control : LoopControl) (world : ω) (h : motive world) :
    motive (settle pass limit thread control world).2.2 := by
  induction limit generalizing thread control world with
  | zero => exact h
  | succ limit ih =>
    rw [settle]
    cases hstep : step pass thread control world with
    | none => exact h
    | some next =>
      rcases world_step hstep with hworld | hworld
      · exact ih _ _ _ (hworld ▸ h)
      · exact ih _ _ _ (hworld ▸ hpass world h)

end MissionThread

namespace Computer

/-- The settings are stored and the clock is saved in the files; the policies in force and the number of the boot are
those of the settings. -/
structure Steady (c : Computer) : Prop where
  settings : c.settings.Stored
  policies : c.faults.policies = c.settings.current.policies
  bootIndex : c.bootIndex = c.settings.current.bootIndex
  clock : c.clock.SavedIn c.files
  notificationPeriod : c.clock.notificationPeriod = c.config.clockNotificationPeriod
  savePeriod : c.clock.savePeriod = c.config.clockSavePeriod
  /-- The thread holds no experiment but those of the computer. -/
  held (e : Experiment ExperimentBay) : c.experimentThread.held? = some e → e ∈ laboratory.experiments

variable {c next : Computer}

/-! ### Steps -/

/-- What steadiness is about. -/
def relied (c : Computer) :=
  (c.settings, c.faults, c.bootIndex, c.clock, c.files, c.config.clockNotificationPeriod, c.config.clockSavePeriod,
    c.experimentThread)

theorem Steady.frame (h : c.Steady) (hsame : next.relied = c.relied) : next.Steady := by
  simp only [relied, Prod.mk.injEq] at hsame
  obtain ⟨hsettings, hfaults, hbootIndex, hclock, hfiles, hnotification, hsave, hthread⟩ := hsame
  constructor
  · rw [hsettings]
    exact h.settings
  · rw [hfaults, hsettings]
    exact h.policies
  · rw [hbootIndex, hsettings]
    exact h.bootIndex
  · rw [hclock, hfiles]
    exact h.clock
  · rw [hclock, hnotification]
    exact h.notificationPeriod
  · rw [hclock, hsave]
    exact h.savePeriod
  · rw [hthread]
    exact h.held

theorem Steady.absorb (h : c.Steady) (reports : List Report) : (c.absorb reports).Steady :=
  { h with policies := (Counters.policies_reportAll reports _).trans h.policies }

/-- Other settings than the policies and the number of the boot are changed. -/
theorem Steady.store (h : c.Steady) {change : Settings → Settings}
    (hpolicies : (change c.settings.current).policies = c.settings.current.policies)
    (hboot : (change c.settings.current).bootIndex = c.settings.current.bootIndex) :
    { c with settings := (c.settings.modify change).2.2 }.Steady :=
  { h with
    settings := SettingsStore.stored_modify h.settings.working change
    policies := h.policies.trans hpolicies.symm
    bootIndex := h.bootIndex.trans hboot.symm }

theorem Steady.carryOut (h : c.Steady) {change : Clock.Change} {later : Clock}
    (step : Clock.Step c.clock change later) :
    ({ c with clock := later }.carryOut change).Steady :=
  { h with
    clock := h.clock.step step
    notificationPeriod := step.frame.2.2.1.trans h.notificationPeriod
    savePeriod := step.frame.2.2.2.trans h.savePeriod }

theorem Steady.breakOff (h : c.Steady) {later : Clock} (hbroken : Clock.BreaksOff c.clock later) :
    { c with clock := later }.Steady :=
  { h with
    clock := h.clock.breakOff hbroken
    notificationPeriod := hbroken.frame.2.1.trans h.notificationPeriod
    savePeriod := hbroken.frame.2.2.trans h.savePeriod }

theorem Steady.setTime (h : c.Steady) (point : TimePoint) : (c.setTime point).2.Steady := by
  unfold Computer.setTime
  rcases hset : c.clock.set point with ⟨e | _ | change, later⟩
  · exact h.breakOff (.set point e hset)
  · obtain ⟨-, rfl⟩ := Clock.set_eq_none_iff.1 hset
    exact h
  · exact h.carryOut (.set point hset)

theorem Steady.advance (h : c.Steady) (delta : Duration) : (c.advance delta).2.Steady := by
  unfold Computer.advance
  rcases hadvance : c.clock.advance delta with ⟨e | change, later⟩
  · exact h.breakOff (.advance delta e hadvance)
  · exact h.carryOut (.advance delta hadvance)

theorem Steady.setPolicy (h : c.Steady) (device : Device) (policy : Policy) : (c.setPolicy device policy).Steady := by
  let change (settings : Settings) : Settings := { settings with policies := settings.policies.set device policy }
  have hpolicies : (c.faults.setPolicy device policy).policies = (change c.settings.current).policies := by
    show _ = c.settings.current.policies.set device policy
    rw [← h.policies]
    exact Counters.policies_setPolicy device policy c.faults.counters
  have hchanged : { c with faults := c.faults.setPolicy device policy
                           settings := (c.settings.modify change).2.2 }.Steady :=
    { h with
      settings := SettingsStore.stored_modify h.settings.working change
      policies := hpolicies }
  exact hchanged.absorb (c.settings.modify change).2.1

/-! ### Hooks -/

theorem Steady.updateAntennas (h : c.Steady) (snapshot : Snapshot) : (updateAntennas.run snapshot c).2.2.Steady := by
  have hrefresh (antennas : AntennaHardware) (deployment : Deployment) (reports : List Report) :
      ({ c with antennas, deployment }.absorb reports).Steady := by
    have hnext : { c with antennas, deployment }.Steady := h.frame rfl
    exact hnext.absorb reports
  have hremember {c : Computer} (h : c.Steady) (deployment : Deployment) :
      { c with settings := (deployment.remember c.settings).2 }.Steady := by
    unfold Deployment.remember
    split
    · exact h.store rfl rfl
    · exact h
  exact (hremember (hrefresh _ _ _) _).absorb _

theorem Steady.correctTime (h : c.Steady) (snapshot : Snapshot) : (correctTime.execute snapshot c).2.Steady := by
  unfold Computer.correctTime
  simp only
  rcases DriftCorrection.execute_cases c.drift c.externalClock snapshot c with hclock | ⟨point, hclock⟩
  · rw [hclock]
    exact h.frame rfl
  · rw [hclock]
    exact (h.setTime point).frame rfl

theorem Steady.deployAntennas (h : c.Steady) (snapshot : Snapshot) : (deployAntennas.execute snapshot c).2.Steady := by
  have hexecute (antennas : AntennaHardware) (deployment : Deployment) : { c with antennas, deployment }.Steady :=
    h.frame rfl
  exact (hexecute _ _).absorb _

theorem Steady.openSailStep (h : c.Steady) (snapshot : Snapshot) : (openSailStep.execute snapshot c).2.Steady := by
  have hsettings : { c with settings := (c.sail.execute c.settings).2.2.1 }.Steady := by
    rcases c.sail.settings_execute c.settings with heq | heq
    · rw [heq]
      exact h
    · rw [heq]
      exact h.store rfl rfl
  have hpower {c : Computer} (h : c.Steady) (event : Option PowerEvent) : (c.requestPower event).Steady := by
    cases event with
    | none => exact h
    | some event => exact h.frame rfl
  have hexecute (sail : SailTask) : { c with settings := (c.sail.execute c.settings).2.2.1, sail }.Steady :=
    hsettings.frame rfl
  exact (hpower (hexecute _) _).absorb _

theorem Steady.saveTelemetry (h : c.Steady) (snapshot : Snapshot) : (saveTelemetry.execute snapshot c).2.Steady :=
  { h with clock := h.clock.of_sameBut (TelemetryArchive.sameBut_save _ _ _) (by decide) }

/-- A mission pass. -/
theorem Steady.pass (h : c.Steady) : c.pass.2.Steady := by
  refine MissionLoop.invariant_runOnce missionLoop c ?_ ?_ (fun _ h => h.frame rfl)
    (fun _ _ h => h.frame rfl) h
  · intro hook hmem snapshot c h
    simp only [missionLoop, List.mem_cons, List.not_mem_nil, or_false] at hmem
    rcases hmem with rfl | rfl | rfl | rfl | rfl
    · exact h
    · exact h
    · exact h.updateAntennas snapshot
    · exact h
    · exact h
  · intro hook hmem snapshot c h
    simp only [missionLoop, List.mem_cons, List.not_mem_nil, or_false] at hmem
    rcases hmem with rfl | rfl | rfl | rfl | rfl | rfl
    · exact h.correctTime snapshot
    · exact h.deployAntennas snapshot
    · exact h.openSailStep snapshot
    · exact h.frame rfl
    · exact h.frame rfl
    · exact h.saveTelemetry snapshot

/-! ### Threads -/

/-- The experiments of the computer leave the copies of the time alone. -/
private theorem preserves_laboratory (clock : Clock) :
    laboratory.Preserves fun bay : ExperimentBay => clock.SavedIn bay.files where
  experiments e hmem := by
    obtain rfl := List.mem_singleton.1 hmem
    exact Fibonacci.preserves_experiment fun bay fib files hsame hsaved => hsaved.of_sameBut hsame (by decide)
  record _ _ hsaved := hsaved

theorem Steady.settleExperiments (h : c.Steady) : c.settleExperiments.Steady := by
  have hhost : c.host.Keeps laboratory fun bay => c.clock.SavedIn bay.files := ⟨h.held, h.clock⟩
  have hsettled := hhost.settle (preserves_laboratory c.clock) experimentSteps
  exact { h with clock := hsettled.world, held := hsettled.held }

theorem Steady.runOnce (h : c.Steady) : c.runOnce.2.Steady := by
  have hpass := h.pass
  unfold Computer.runOnce
  generalize c.pass = result at hpass ⊢
  exact hpass.settleExperiments

theorem Steady.settleMission (h : c.Steady) : c.settleMission.Steady := by
  have hsettled := MissionThread.invariant_settle (fun c (h : Steady c) => h.runOnce) missionSteps c.missionThread
    c.control c h
  unfold Computer.settleMission
  exact hsettled.frame rfl

theorem Steady.settle (h : c.Steady) : c.settle.Steady := h.settleExperiments.settleMission

theorem Steady.stopThreads (h : c.Steady) : c.stopThreads.Steady := by
  have hshut : { c with control := c.control.shutDown }.Steady := h.frame rfl
  have hmission := hshut.settleMission
  unfold Computer.stopThreads
  generalize { c with control := c.control.shutDown }.settleMission = stopped at hmission
  have hexperiments : { stopped with experiments := stopped.experiments.shutDown }.Steady :=
    hmission.frame rfl
  exact hexperiments.settleExperiments

end Computer

end Spacecraft
