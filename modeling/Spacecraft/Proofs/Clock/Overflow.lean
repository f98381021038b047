import Spacecraft.Proofs.Clock.Concurrent
import Spacecraft.Proofs.Config.Documents

/-!
# Calls that leave the range of time

An advance adds its span to three counters, one after the other, and each of these additions can leave the range.  The
two counters of elapsed time do not exceed the time itself (`Clock.Bounded`), whatever calls were made before and
however their parts were interleaved.  So only the first addition can fail (`Bounded.advance_eq`), and when it does
nothing has moved yet.

One kind of clock is excepted.  A jump moves the time and puts the counters beyond their periods, and where only the
save period is within a millisecond of the longest span, it stops between the two: the counter of announcements is then
ahead of the time, and a later advance can stop after the time has moved (`stops_between_counters`).  No document says
such a period (`Clock.canJump_startingAt`).
-/

namespace Spacecraft

namespace Clock

/-- A jump that gets past its first sum gets past the second one too. -/
def JumpsWhole (clock : Clock) : Prop := clock.notificationPeriod.LeavesRoom → clock.savePeriod.LeavesRoom

/-- The counters of elapsed time have not counted more than the time, that of announcements on a clock whose jumps do
not stop between them. -/
structure Bounded (clock : Clock) : Prop where
  sinceSave_le : clock.sinceSave ≤ clock.current
  sinceNotification_le : clock.JumpsWhole → clock.sinceNotification ≤ clock.current

/-- A clock with a configuration from a document can jump at any time. -/
theorem canJump_startingAt {text : String} {config : MissionConfig} (hread : MissionConfig.ofText text = .ok config)
    (time : Duration) : (startingAt time config).CanJump := by
  have hwhole := MissionConfig.inWholeMillis_ofText hread
  have hnotification : config.value .clockNotificationPeriod = .span config.clockNotificationPeriod := rfl
  have hsave : config.value .clockSavePeriod = .span config.clockSavePeriod := rfl
  exact ⟨hwhole.leavesRoom hnotification, hwhole.leavesRoom hsave⟩

private theorem restart_le_of_le {due : Bool} {counter now : Duration} (h : counter ≤ now) :
    (if due then .zero else counter) ≤ now := by
  split
  · exact Nat.zero_le _
  · exact h

namespace Bounded

variable {clock : Clock} {delta now : Duration}

theorem settle (h : clock.Bounded) : clock.settle.2.Bounded where
  sinceSave_le := restart_le_of_le h.sinceSave_le
  sinceNotification_le hwhole := restart_le_of_le (h.sinceNotification_le hwhole)

/-- Where the time stays in range, so do the counters. -/
theorem advance_eq (h : clock.Bounded) (hwhole : clock.JumpsWhole) (hnow : clock.current.add delta = .ok now) :
    ∃ sinceNotification sinceSave, clock.sinceNotification.add delta = .ok sinceNotification ∧
      clock.sinceSave.add delta = .ok sinceSave ∧
      clock.advance delta = (.ok (Clock.settle { clock with current := now, sinceNotification, sinceSave }).1,
        (Clock.settle { clock with current := now, sinceNotification, sinceSave }).2) := by
  obtain ⟨sinceNotification, hnotification, -⟩ := Duration.add_of_le (h.sinceNotification_le hwhole) hnow
  obtain ⟨sinceSave, hsave, -⟩ := Duration.add_of_le h.sinceSave_le hnow
  refine ⟨sinceNotification, sinceSave, hnotification, hsave, ?_⟩
  exact advance_eq_ok_iff.2 ⟨now, sinceNotification, sinceSave, hnow, hnotification, hsave, rfl⟩

theorem advance (h : clock.Bounded) (delta : Duration) : (clock.advance delta).2.Bounded := by
  cases hnow : clock.current.add delta with
  | error e =>
    rw [advance_of_error hnow]
    exact h
  | ok now =>
    obtain ⟨sinceSave, hsave, hsaveLe⟩ := Duration.add_of_le h.sinceSave_le hnow
    cases hnotification : clock.sinceNotification.add delta with
    | error e =>
      -- The time has moved and the counters have not; this does not happen to a clock whose jumps do not stop.
      have hadvance : clock.advance delta = (.error e, { clock with current := now }) := by
        rw [Clock.advance, hnow]
        simp only [hnotification]
      rw [hadvance]
      refine ⟨Nat.le_trans h.sinceSave_le (Duration.le_of_add_eq_ok hnow), fun hwhole => ?_⟩
      obtain ⟨_, hok, -⟩ := Duration.add_of_le (h.sinceNotification_le hwhole) hnow
      rw [hok] at hnotification
      cases hnotification
    | ok sinceNotification =>
      have hadvance := advance_eq_ok_iff.2 ⟨now, sinceNotification, sinceSave, hnow, hnotification, hsave, rfl⟩
      have hmoved : Bounded { clock with current := now, sinceNotification, sinceSave } := by
        refine ⟨hsaveLe, fun hwhole => ?_⟩
        obtain ⟨_, hok, hle⟩ := Duration.add_of_le (h.sinceNotification_le hwhole) hnow
        rw [hok] at hnotification
        cases hnotification
        exact hle
      rw [hadvance]
      exact hmoved.settle

theorem set (h : clock.Bounded) (point : TimePoint) : (clock.set point).2.Bounded := by
  by_cases hlt : point.toDuration < clock.current
  · rw [set_of_lt hlt]
    exact h
  · have hle := Duration.not_lt.1 hlt
    by_cases hjump : clock.CanJump
    · rw [set_of_le hjump hle]
      exact ⟨Nat.zero_le _, fun _ => Nat.zero_le _⟩
    · obtain ⟨e, sinceNotification, hset, hcounter⟩ := exists_set_eq_error hjump hle
      rw [hset]
      refine ⟨Nat.le_trans h.sinceSave_le hle, fun hwhole => ?_⟩
      rcases hcounter with rfl | ⟨hnotification, hsave⟩
      · exact Nat.le_trans (h.sinceNotification_le hwhole) hle
      · exact absurd (hwhole (Duration.leavesRoom_iff.2 ⟨_, hnotification⟩)) hsave

end Bounded

end Clock

namespace SharedClock

variable {ι ν σ : Type} [DecidableEq ι] [FileStore σ]

/-- The states that a shared clock can come to from its boot, by moves of its callers in any order, while the store
changes by itself between them.  A call that is broken off leaves the clock as far as it has moved it. -/
inductive Reachable (config : MissionConfig) : SharedClock ι ν σ → Prop where
  | boot (store : σ) : Reachable config (ofClock (.boot config store))
  | move {c : SharedClock ι ν σ} (move : ClockMove ι ν) : Reachable config c → Reachable config (c.perform move)
  | disturb {c : SharedClock ι ν σ} (store : σ) :
      Reachable config c → Reachable config { c with host := { c.host with store } }

theorem Reachable.after {config : MissionConfig} {c : SharedClock ι ν σ} (h : Reachable config c)
    (moves : List (ClockMove ι ν)) : Reachable config (c.after moves) := by
  induction moves generalizing c with
  | nil => exact h
  | cons move moves ih => exact ih (h.move move)

end SharedClock

end Spacecraft
