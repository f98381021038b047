import Spacecraft.Proofs.Clock.Run
import Spacecraft.Storage.Files

/-!
# When the clock announces and saves

All along a run that stays in the range of time, the counters of the clock measure the time since the last announcement
and since the last save, which were at most a period ago.  So an advance is announced, or saved, exactly where it comes
strictly more than the period after the last one; an accepted jump is both, and a refused jump is nothing
(`announces_and_saves_on_schedule`).
-/

namespace Spacecraft

namespace HeardClock

variable {ν σ : Type} [FileStore σ] {disturbs : σ → σ → Prop}

/-- A run of a clock from its boot whose calls stay in the range of time.  Its time never goes back.  Its counters
measure the time since the last announcement and since the last save, or since the boot, and do not exceed the periods;
the pulse fires once for each announcement.  An advance that stays in range calls the listener and fires the pulse
exactly where it comes strictly more than the notification period after the last announcement, and saves exactly where
it comes strictly more than the save period after the last save.  A jump into the past is refused and changes nothing.
Any other jump is accepted and does each of these once, with the new time; only where one of the periods is within a
millisecond of the longest span, it leaves the range of time instead. -/
theorem announces_and_saves_on_schedule {config : MissionConfig} {store : σ} {changes : List Clock.Change}
    {c : HeardClock ν σ} (run : Run .inRange disturbs (boot config store) changes c) :
    let announced := Clock.Change.lastTime (·.announces) (TimeCopies.recover store) changes
    let saved := Clock.Change.lastTime (·.saves) (TimeCopies.recover store) changes
    let notificationPeriod := config.clockNotificationPeriod
    let savePeriod := config.clockSavePeriod
    (∀ {changes' c'}, Run .inRange disturbs c changes' c' → c.clock.current ≤ c'.clock.current) ∧
    (announced ≤ c.clock.current ∧ c.clock.sinceNotification = c.clock.current - announced ∧
      c.clock.sinceNotification ≤ notificationPeriod) ∧
    (saved ≤ c.clock.current ∧ c.clock.sinceSave = c.clock.current - saved ∧ c.clock.sinceSave ≤ savePeriod) ∧
    c.tick.fired = changes.countP (·.announces) ∧
    (∀ delta now, c.clock.current.add delta = .ok now → ∃ later, c.advance delta = (.ok (), later) ∧
      later.clock.current = now ∧
      later.tick = (if notificationPeriod < now - announced then c.tick.fire else c.tick) ∧
      later.heard = (if notificationPeriod < now - announced then c.told now else c.heard) ∧
      later.store = (if savePeriod < now - saved then TimeCopies.save now c.store else c.store)) ∧
    (∀ point, c.clock.current ≤ point.toDuration → c.clock.CanJump → ∃ later, c.set point = (.ok true, later) ∧
      later.clock.current = point.toDuration ∧ later.tick = c.tick.fire ∧ later.heard = c.told point.toDuration ∧
      later.store = TimeCopies.save point.toDuration c.store) ∧
    (∀ point, c.clock.current ≤ point.toDuration → ¬ c.clock.CanJump →
      ∃ overflow later, c.set point = (.error overflow, later)) ∧
    (∀ point, point.toDuration < c.clock.current → c.set point = (.ok false, c)) := by
  intro announced saved notificationPeriod savePeriod
  have hstart := Clock.onSchedule_startingAt (TimeCopies.recover store) config
  have h := run.onSchedule hstart
  have hsince := run.since_le hstart
  refine ⟨fun run' => run'.current_le, ⟨h.announced.moment_le, h.announced.eq_sub, hsince.1⟩,
    ⟨h.saved.moment_le, h.saved.eq_sub, hsince.2⟩, ?_, ?_, ?_, ?_, fun point hlt => set_of_lt hlt⟩
  · rw [run.fired]
    exact Nat.zero_add _
  · intro delta now hnow
    obtain ⟨later, change, hadvance, hcurrent, rfl, hannounces, hsaves⟩ := run.advance_effects hstart hnow
    refine ⟨_, hadvance, hcurrent, ?_, ?_, ?_⟩
    · exact ite_congr (propext hannounces) (fun _ => rfl) (fun _ => rfl)
    · rw [heard_carryOut]
      exact ite_congr (propext hannounces) (fun _ => rfl) (fun _ => rfl)
    · exact ite_congr (propext hsaves) (fun _ => rfl) (fun _ => rfl)
  · intro point hle hjump
    refine ⟨_, set_of_some (Clock.set_of_le hjump hle), rfl, rfl, ?_, rfl⟩
    rw [heard_carryOut]
    rfl
  · intro point hle hjump
    obtain ⟨e, later, hset⟩ := Clock.exists_set_eq_error_iff.2 ⟨hle, hjump⟩
    exact ⟨e, _, set_of_error hset⟩

theorem announces_beyond_ten_seconds :
    let c := (((boot .standard Files.empty : HeardClock String Files).listen "log").advance (.ofMillis 10000)).2
    c.heard = [] ∧ ∃ later, c.advance .millisecond = (.ok (), later) ∧ later.heard = [("log", ⟨0, 0, 0, 10, 1⟩)] := by
  intro c
  have run : Run .inRange (fun _ _ => False) (boot .standard Files.empty) [⟨.ofMillis 10000, false, false⟩] c :=
    .advance (.ofMillis 10000) (.listen "log" .start) (by cbv)
  obtain ⟨-, -, -, -, hadvance, -⟩ := announces_and_saves_on_schedule run
  obtain ⟨later, hlater, -, -, hheard, -⟩ := hadvance .millisecond (.ofMillis 10001) (by cbv)
  exact ⟨by rfl, later, hlater, hheard.trans (by rfl)⟩

end HeardClock

end Spacecraft
