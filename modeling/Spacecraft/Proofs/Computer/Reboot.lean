import Spacecraft.Proofs.Computer.Steady

/-!
# What a reboot keeps

Whatever the operator asks for, whatever the antennas answer and however much time passes, a computer on three working
chips stays steady (`steady_after`), also over reboots on the way.  A steady computer finds all of its settings again
(`Steady.settings_boot`), and of its time all but what the save period lets it lose (`reboot_keeps_settings_and_time`).

The time is saved in milliseconds of 64 bits.  Beyond that range a reboot still does not put the clock forward, but it
may lose nearly all of the time, and so it may after a jump that left the range of time before the save
(`reboot_loses_time_out_of_range`).
-/

namespace Spacecraft

namespace Computer

/-- What may happen to a computer. -/
inductive Operation where
  | advance (delta : Duration)
  | setTime (point : TimePoint)
  | setPolicy (device : Device) (policy : Policy)
  | setMask (masked : UInt16)
  | openSail
  | setAntennaOverride (enable : Bool)
  | restartDeployment
  | requestExperiment (code : UInt8)
  | abortExperiment
  | setFibonacciTerms (terms : UInt32)
  | runOnce
  | suspend
  | resume
  | requestSingle
  | startThreads
  | stopThreads
  /-- Both threads run until they block. -/
  | settle
  /-- The tick of the mission thread is over. -/
  | tick
  | reportOutcomes (device : Device) (healthy : Bool) (n : Nat)
  /-- From now on the controllers, the external clock and the attitude control answer otherwise. -/
  | surround (antennas : AntennaHardware) (externalClock : Except DeviceError Duration) (attitude : AttitudeMode)
  | reboot (config : MissionConfig)

/-- The computer after an operation. -/
def perform (c : Computer) : Operation → Computer
  | .advance delta => (c.advance delta).2
  | .setTime point => (c.setTime point).2
  | .setPolicy device policy => c.setPolicy device policy
  | .setMask masked => c.setMask masked
  | .openSail => c.openSail
  | .setAntennaOverride enable => c.setAntennaOverride enable
  | .restartDeployment => c.restartDeployment
  | .requestExperiment code => (c.requestExperiment code).2
  | .abortExperiment => c.abortExperiment
  | .setFibonacciTerms terms => (c.setFibonacciTerms terms).2
  | .runOnce => c.runOnce.2
  | .suspend => c.suspend
  | .resume => c.resume
  | .requestSingle => c.requestSingle
  | .startThreads => c.startThreads
  | .stopThreads => c.stopThreads
  | .settle => c.settle
  | .tick => { c with missionThread := c.missionThread.tick }
  | .reportOutcomes device healthy n => c.reportOutcomes device healthy n
  | .surround antennas externalClock attitude => { c with antennas, externalClock, attitude }
  | .reboot config => c.reboot config

/-- The computer after operations, the first of which comes first. -/
def after (c : Computer) (operations : List Operation) : Computer := operations.foldl perform c

variable {c : Computer} {hardware : Hardware}

/-! ### Boots -/

private theorem bootSettings_spec (chips : ChipBank) :
    (bootSettings chips).1 =
      ((SettingsStore.load chips).1.modify fun settings => { settings with bootIndex := settings.bootIndex + 1 }).2.2 :=
  rfl

/-- Three working chips, whatever they hold, and files of which no more than one copy of the time refuses to be written
are enough to start from. -/
private theorem steady_boot (hchips : ∀ i, SettingsStore.working hardware.chips i = true)
    (hfiles : TimeCopies.OneRefusing hardware.files) (config : MissionConfig) : (boot hardware config).Steady := by
  have hstored : (bootSettings hardware.chips).1.Stored := by
    rw [bootSettings_spec]
    exact SettingsStore.stored_modify hchips _
  unfold boot
  generalize bootSettings hardware.chips = started at hstored ⊢
  obtain ⟨settings, reports⟩ := started
  rcases hcount : FaultIsolation.fresh.reportAll reports with ⟨cycles, faults⟩
  have hpolicies : (faults.loadPolicies settings.current.policies).policies = settings.current.policies :=
    Counters.policies_setPolicies _ faults.counters
  have hheld (e : Experiment ExperimentBay) (he : ExperimentThread.unborn.held? = some e) :
      e ∈ laboratory.experiments := by
    cases he
  simp only [hcount]
  exact ⟨hstored, hpolicies, rfl, Clock.savedIn_boot config hfiles, rfl, rfl, hheld⟩

private theorem Steady.boot_hardware (h : c.Steady) (config : MissionConfig) : (boot c.hardware config).Steady :=
  steady_boot h.settings.working h.clock.oneRefusing config

theorem Steady.reboot (h : c.Steady) (config : MissionConfig) : (c.reboot config).Steady := by
  unfold Computer.reboot
  split
  · exact h.stopThreads.boot_hardware config
  · exact h.boot_hardware config

/-- A boot finds the settings that the computer left, and counts itself in them. -/
theorem Steady.settings_boot (h : c.Steady) (config : MissionConfig) :
    (boot c.hardware config).settings.current = { c.settings.current with bootIndex := c.bootIndex + 1 } := by
  have hload : (SettingsStore.load c.settings.bank).1.current = c.settings.current := h.settings.current_load
  show (bootSettings c.settings.bank).1.current = _
  rw [bootSettings_spec, h.bootIndex, ← hload]
  rfl

/-! ### Runs -/

private theorem steady_perform (h : c.Steady) (operation : Operation) : (c.perform operation).Steady := by
  cases operation with
  | advance delta => exact h.advance delta
  | setTime point => exact h.setTime point
  | setPolicy device policy => exact h.setPolicy device policy
  | setMask => exact { h with policies := h.policies }
  | setFibonacciTerms terms =>
    show (c.setFibonacciTerms terms).2.Steady
    unfold setFibonacciTerms
    split
    · exact h
    · exact h.frame rfl
  | runOnce => exact h.runOnce
  | startThreads =>
    -- The experiment thread starts with empty hands.
    exact { h with held := fun e he => by cases he }
  | stopThreads => exact h.stopThreads
  | settle => exact h.settle
  | reportOutcomes => exact h.absorb _
  | reboot config => exact h.reboot config
  | openSail | setAntennaOverride | restartDeployment | requestExperiment | abortExperiment | suspend | resume
  | requestSingle | tick | surround => exact h.frame rfl

theorem steady_after (h : c.Steady) (operations : List Operation) : (c.after operations).Steady := by
  induction operations generalizing c with
  | nil => exact h
  | cons operation operations ih => exact ih (steady_perform h operation)

/-- Any history of a computer that was started on three working chips, whatever they hold, and on files of which no more
than one copy of the time refuses to be written.  The policies in force are those of the settings.  When the computer is
started again on its hardware, with any configuration, the number of the boot goes up by one, all other settings and the
policies in force are the same, and the clock is not put forward; where the time was below `2 ^ 64` milliseconds and the
notification period a millisecond below the longest span, it is put back by less than the save period and a
millisecond. -/
theorem reboot_keeps_settings_and_time (hchips : ∀ i, SettingsStore.working hardware.chips i = true)
    (hfiles : TimeCopies.OneRefusing hardware.files) (config later : MissionConfig) (operations : List Operation) :
    let c := (boot hardware config).after operations
    let rebooted := boot c.hardware later
    c.faults.policies = c.settings.current.policies ∧
      rebooted.bootIndex = c.bootIndex + 1 ∧
      rebooted.faults.policies = c.faults.policies ∧
      rebooted.settings.current = { c.settings.current with bootIndex := c.bootIndex + 1 } ∧
      rebooted.clock.current ≤ c.clock.current ∧
      (c.clock.current.millis < UInt64.size → c.config.clockNotificationPeriod.LeavesRoom →
        c.clock.current.nanos < rebooted.clock.current.nanos + c.config.clockSavePeriod.nanos +
          Duration.millisecond.nanos) := by
  intro c rebooted
  have hsteady : c.Steady := steady_after (steady_boot hchips hfiles config) operations
  have hrebooted : rebooted.Steady := hsteady.boot_hardware later
  have hsettings : rebooted.settings.current = _ := hsteady.settings_boot later
  have hbootIndex : rebooted.bootIndex = c.bootIndex + 1 := by
    rw [hrebooted.bootIndex, hsettings]
  have hpolicies : rebooted.faults.policies = c.faults.policies := by
    rw [hrebooted.policies, hsettings, hsteady.policies]
  refine ⟨hsteady.policies, hbootIndex, hpolicies, hsettings, hsteady.clock.recover_le, ?_⟩
  intro hrange hroom
  rw [← hsteady.savePeriod]
  exact hsteady.clock.lt_recover (hsteady.notificationPeriod ▸ hroom) hrange

/-- Three blank chips, no files, and controllers on the test bench. -/
def blankHardware : Hardware where
  files := .empty
  power := .empty
  antennas := ⟨.idle, .fresh, false⟩
  chips := .blank 72
  externalClock := .ok .zero
  attitude := .detumbling

/-- A policy of the operator and twenty minutes of mission time outlive a reboot. -/
theorem reboot_keeps_policy_and_twenty_minutes :
    let c := (boot blankHardware .standard).after
      [.setPolicy .gyro ⟨20, 10, 1⟩, .openSail, .runOnce, .advance (.ofMillis 1200000)]
    let rebooted := boot c.hardware .standard
    (∀ i, SettingsStore.working blankHardware.chips i = true) ∧ TimeCopies.OneRefusing blankHardware.files ∧
      rebooted.bootIndex = 2 ∧ rebooted.faults.policies.get .gyro = ⟨20, 10, 1⟩ ∧
      c.clock.current.nanos < rebooted.clock.current.nanos + c.config.clockSavePeriod.nanos +
        Duration.millisecond.nanos := by
  intro c rebooted
  have hchips : ∀ i, SettingsStore.working blankHardware.chips i = true := by decide +kernel
  have hfiles : TimeCopies.OneRefusing blankHardware.files := by decide +kernel
  have hkept := reboot_keeps_settings_and_time hchips hfiles .standard .standard
    [.setPolicy .gyro ⟨20, 10, 1⟩, .openSail, .runOnce, .advance (.ofMillis 1200000)]
  extract_lets at hkept
  obtain ⟨-, hbootIndex, hpolicies, -, -, hclock⟩ := hkept
  have hcounted : c.bootIndex = 1 := by decide +kernel
  have hset : c.faults.policies.get .gyro = ⟨20, 10, 1⟩ := by decide +kernel
  have hrange : c.clock.current.millis < UInt64.size := by decide +kernel
  refine ⟨hchips, hfiles, ?_, ?_, ?_⟩
  · rw [hbootIndex, hcounted]
    rfl
  · rw [hpolicies, hset]
  · exact hclock hrange (by decide +kernel)

/-- A time that does not fit into 64 bits of milliseconds is saved without its higher bits: after a reboot the clock
starts from zero.  And a clock that announces after the longest span jumps by a day and does not come to the save. -/
theorem reboot_loses_time_out_of_range :
    let c := (boot blankHardware .standard).after [.advance ⟨18446744073709551616000000, by decide⟩]
    let rebooted := boot c.hardware .standard
    let silent : MissionConfig := { MissionConfig.standard with clockNotificationPeriod := .longest }
    let stopped := (boot blankHardware silent).after [.setTime ⟨1, 0, 0, 0, 0⟩]
    let restarted := boot stopped.hardware silent
    (∀ i, SettingsStore.working blankHardware.chips i = true) ∧ TimeCopies.OneRefusing blankHardware.files ∧
      (rebooted.clock.current = .zero ∧
        ¬ c.clock.current.nanos < rebooted.clock.current.nanos + c.config.clockSavePeriod.nanos +
          Duration.millisecond.nanos) ∧
      stopped.clock.current = .ofMillis 86400000 ∧ restarted.clock.current = .zero ∧
        ¬ stopped.clock.current.nanos < restarted.clock.current.nanos + stopped.config.clockSavePeriod.nanos +
          Duration.millisecond.nanos := by
  decide +kernel

end Computer

end Spacecraft
