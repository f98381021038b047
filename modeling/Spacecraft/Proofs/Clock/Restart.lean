import Spacecraft.Proofs.Clock.Durability
import Spacecraft.Proofs.Clock.NotAhead

/-!
# What a restart makes of the time

Between two restarts the copies of a clock that can jump always vote for the time of its last save in the 64 bits of a
copy (`Clock.SavedIn`).  This is not ahead of the time even where the time has left these bits, and as long as it has
not, it is behind by less than the save period and a millisecond (`SavedIn.lt_recover`).

A jump that leaves the range of time moves the clock without saving the time.  The copies are still not ahead of it
then.  How far they are behind has a bound only where the notification period leaves room for a jump: such a jump can
then stop at the save period alone, and no time is as long as that.
-/

namespace Spacecraft

namespace Clock

open TimeCopies

/-- What the copies vote for is not ahead of the clock, and no more than one of them refuses to be written.  A clock
that can jump is on schedule, and the copies vote for the time of its last save. -/
structure SavedIn (files : Files) (clock : Clock) : Prop where
  oneRefusing : OneRefusing files
  recover_le : recover files ≤ clock.current
  recovered : clock.CanJump → ∃ start changes, clock.OnSchedule start changes ∧
    recover files = .ofMillis (Change.lastTime (·.saves) start changes).millis64

variable {files files' : Files} {clock later : Clock} {change : Change}

private theorem CanJump.of_eq (h : later.CanJump) (hnotification : later.notificationPeriod = clock.notificationPeriod)
    (hsave : later.savePeriod = clock.savePeriod) : clock.CanJump where
  notification := hnotification ▸ h.notification
  save := hsave ▸ h.save

theorem savedIn_boot (config : MissionConfig) (h : OneRefusing files) : SavedIn files (boot config files) where
  oneRefusing := h
  recover_le := Nat.le_refl _
  recovered _ := by
    refine ⟨recover files, [], onSchedule_startingAt _ config, ?_⟩
    show recover files = .ofMillis (recover files).millis64
    rw [recover, Duration.millis64_ofMillis]

theorem SavedIn.step (h : clock.SavedIn files) (step : Step clock change later) :
    later.SavedIn (change.save files) := by
  obtain ⟨hle, htime, hnotification, hsave⟩ := step.frame
  unfold Change.save
  cases hsaves : change.saves with
  | true =>
    rw [if_pos rfl]
    refine ⟨h.oneRefusing.save change.time, ?_, fun hjump => ?_⟩
    · rw [recover_save_millis64 h.oneRefusing, htime]
      exact ofMillis_millis64_le _
    · obtain ⟨start, changes, hschedule, -⟩ := h.recovered (hjump.of_eq hnotification hsave)
      refine ⟨start, change :: changes, step.onSchedule hschedule, ?_⟩
      rw [Change.lastTime_cons, hsaves]
      exact recover_save_millis64 h.oneRefusing change.time
  | false =>
    refine ⟨h.oneRefusing, Nat.le_trans h.recover_le hle, fun hjump => ?_⟩
    obtain ⟨start, changes, hschedule, hrecover⟩ := h.recovered (hjump.of_eq hnotification hsave)
    refine ⟨start, change :: changes, step.onSchedule hschedule, ?_⟩
    rw [Change.lastTime_cons, hsaves]
    exact hrecover

/-- On a clock that is on schedule and can jump, a call that leaves the range of time moves nothing. -/
private theorem BreaksOff.eq_self {start : Duration} {changes : List Change} (hbroken : BreaksOff clock later)
    (h : clock.OnSchedule start changes) (hjump : clock.CanJump) : later = clock := by
  cases hbroken with
  | advance delta e hadvance =>
    cases hnow : clock.current.add delta with
    | error e =>
      rw [advance_of_error hnow] at hadvance
      cases hadvance
      rfl
    | ok now =>
      rw [h.toCounts.advance_eq hnow] at hadvance
      cases hadvance
  | set point e hset => exact absurd hjump (exists_set_eq_error_iff.1 ⟨e, later, hset⟩).2

theorem SavedIn.breakOff (h : clock.SavedIn files) (hbroken : BreaksOff clock later) : later.SavedIn files where
  oneRefusing := h.oneRefusing
  recover_le := Nat.le_trans h.recover_le hbroken.frame.1
  recovered hjump := by
    have hcan := hjump.of_eq hbroken.frame.2.1 hbroken.frame.2.2
    obtain ⟨start, changes, hschedule, hrecover⟩ := h.recovered hcan
    obtain rfl := hbroken.eq_self hschedule hcan
    exact ⟨start, changes, hschedule, hrecover⟩

/-- Other files than the copies may change. -/
theorem SavedIn.of_sameBut (h : clock.SavedIn files) {touched : List String} (hsame : files.SameBut touched files')
    (htouched : ∀ path ∈ paths.toList, path ∉ touched) : clock.SavedIn files' := by
  have hrecover : recover files' = recover files :=
    recover_congr fun path hpath => hsame.find? path (htouched path hpath)
  refine ⟨?_, hrecover ▸ h.recover_le, hrecover ▸ h.recovered⟩
  rw [OneRefusing, hsame.refuses]
  exact h.oneRefusing

/-- A time that fits into 64 bits is ahead of what is recovered by less than the save period and a millisecond. -/
theorem SavedIn.lt_recover (h : clock.SavedIn files) (hroom : clock.notificationPeriod.LeavesRoom)
    (hrange : clock.current.millis < UInt64.size) :
    clock.current.nanos < (recover files).nanos + clock.savePeriod.nanos + Duration.millisecond.nanos := by
  by_cases hsave : clock.savePeriod.LeavesRoom
  · obtain ⟨start, changes, hschedule, hrecover⟩ := h.recovered ⟨hroom, hsave⟩
    have hsaved := Nat.lt_of_le_of_lt (Duration.millis_mono hschedule.saved.moment_le) hrange
    obtain ⟨hle, hlt⟩ := hschedule.saved.wholeMillis hschedule.sinceSave_le
    rw [hrecover, Duration.ofMillis_millis64 hsaved]
    rw [Duration.sub_nanos] at hlt
    rw [Duration.le_def] at hle
    omega
  · -- No time is as long as such a period and a millisecond.
    have hend := clock.current.nanos_lt
    rw [Duration.LeavesRoom] at hsave
    omega

end Clock

end Spacecraft
