import Spacecraft.Clock.Bench

/-!
# Runs of the mission clock

A run of a clock is made of advances and jumps, of which those into the past are refused; in between somebody may begin
to listen and the store may change by itself (`HeardClock.Run`).  A run notes the changes that its calls carried out.

As long as all calls stay in the range of time, the counters of the clock measure the time since the last change that
was announced and since the last that was saved, and do not exceed the periods (`Clock.OnSchedule`); hence an advance is
announced or saved exactly when it comes more than a period after that change (`Clock.Counts.advance_eq`).  A call that
leaves the range is broken off with the counters moved in part, and carries nothing out (`Clock.BreaksOff`).
-/

namespace Spacecraft

namespace Clock

/-- The time of the latest change that is of some kind, in changes that stand latest first; else the start. -/
def Change.lastTime (kind : Change → Bool) (start : Duration) (changes : List Change) : Duration :=
  ((changes.find? kind).map Change.time).getD start

theorem Change.lastTime_cons (kind : Change → Bool) (start : Duration) (change : Change) (changes : List Change) :
    lastTime kind start (change :: changes) = if kind change then change.time else lastTime kind start changes := by
  unfold lastTime
  rw [List.find?_cons]
  cases kind change <;> rfl

/-! ### Counters that measure -/

/-- A counter measures the time from some moment to now. -/
def Measures (moment counter now : Duration) : Prop := moment.nanos + counter.nanos = now.nanos

private theorem measures_zero (now : Duration) : Measures now .zero now := Nat.add_zero _

theorem Measures.eq_sub {moment counter now : Duration} (h : Measures moment counter now) : counter = now - moment := by
  unfold Measures at h
  apply Duration.ext
  rw [Duration.sub_nanos]
  omega

theorem Measures.moment_le {moment counter now : Duration} (h : Measures moment counter now) : moment ≤ now := by
  unfold Measures at h
  rw [Duration.le_def]
  omega

/-- A counter that measures does not overflow where the time does not, and goes on measuring. -/
theorem Measures.add {moment counter now delta later : Duration} (h : Measures moment counter now)
    (hlater : now.add delta = .ok later) :
    counter.add delta = .ok (later - moment) ∧ Measures moment (later - moment) later := by
  unfold Measures at h ⊢
  rw [Duration.add_eq_ok_iff] at hlater
  rw [Duration.add_eq_ok_iff, Duration.sub_nanos]
  omega

/-- A counter that starts again when its moment moves to now, and else goes on, still measures. -/
theorem Measures.restart {moment counter now : Duration} (h : Measures moment counter now) (due : Bool) :
    Measures (if due then now else moment) (if due then .zero else counter) now := by
  cases due with
  | false => exact h
  | true => exact measures_zero now

/-- A counter that starts again beyond its period never exceeds it. -/
private theorem restart_le (period counter : Duration) :
    (if decide (period < counter) then .zero else counter) ≤ period := by
  split
  · exact Nat.zero_le _
  · rename_i h
    rw [decide_eq_true_eq] at h
    exact Nat.le_of_not_lt h

/-! ### The counters of the clock -/

/-- The counters measure the time since the last announcement and since the last save. -/
structure Counts (start : Duration) (changes : List Change) (clock : Clock) : Prop where
  announced : Measures (Change.lastTime (·.announces) start changes) clock.sinceNotification clock.current
  saved : Measures (Change.lastTime (·.saves) start changes) clock.sinceSave clock.current

/-- The counters measure the time since the last announcement and the last save, and neither exceeds its period. -/
structure OnSchedule (start : Duration) (changes : List Change) (clock : Clock) : Prop
    extends Counts start changes clock where
  sinceNotification_le : clock.sinceNotification ≤ clock.notificationPeriod
  sinceSave_le : clock.sinceSave ≤ clock.savePeriod

variable {start : Duration} {changes : List Change} {clock : Clock}

theorem onSchedule_startingAt (time : Duration) (config : MissionConfig) :
    OnSchedule time [] (startingAt time config) where
  announced := measures_zero time
  saved := measures_zero time
  sinceNotification_le := Nat.zero_le _
  sinceSave_le := Nat.zero_le _

/-- Settling a clock whose counters are right puts it on schedule. -/
theorem Counts.settle (h : Counts start changes clock) :
    OnSchedule start (clock.settle.1 :: changes) clock.settle.2 where
  announced := by
    rw [Change.lastTime_cons]
    exact h.announced.restart _
  saved := by
    rw [Change.lastTime_cons]
    exact h.saved.restart _
  sinceNotification_le := restart_le _ _
  sinceSave_le := restart_le _ _

/-- The clock at a later time, its counters moved on but not settled. -/
def movedTo (start : Duration) (changes : List Change) (now : Duration) (clock : Clock) : Clock :=
  { clock with
    current := now
    sinceNotification := now - Change.lastTime (·.announces) start changes
    sinceSave := now - Change.lastTime (·.saves) start changes }

private theorem Counts.movedTo (h : Counts start changes clock) {delta now : Duration}
    (hnow : clock.current.add delta = .ok now) : Counts start changes (clock.movedTo start changes now) where
  announced := (h.announced.add hnow).2
  saved := (h.saved.add hnow).2

/-- An advance of a clock whose counters are right overflows only where the time does; it moves the counters to what
they measure at the new time and settles them. -/
theorem Counts.advance_eq (h : Counts start changes clock) {delta now : Duration}
    (hnow : clock.current.add delta = .ok now) :
    clock.advance delta =
      (.ok (clock.movedTo start changes now).settle.1, (clock.movedTo start changes now).settle.2) :=
  advance_eq_ok_iff.2 ⟨now, _, _, hnow, (h.announced.add hnow).1, (h.saved.add hnow).1, rfl⟩

/-! ### Steps -/

/-- A call takes a clock to a later one and carries out a change. -/
inductive Step (clock : Clock) (change : Change) (later : Clock) : Prop where
  | advance (delta : Duration) (h : clock.advance delta = (.ok change, later))
  | set (point : TimePoint) (h : clock.set point = (.ok (some change), later))

variable {change : Change} {later : Clock}

theorem Step.onSchedule (h : OnSchedule start changes clock) (step : Step clock change later) :
    OnSchedule start (change :: changes) later := by
  cases step with
  | advance delta hs =>
    obtain ⟨now, -, -, hnow, -⟩ := advance_eq_ok_iff.1 hs
    rw [h.toCounts.advance_eq hnow] at hs
    obtain ⟨hchange, rfl⟩ := Prod.ext_iff.1 hs
    rw [← Except.ok.inj hchange]
    exact (h.toCounts.movedTo hnow).settle
  | set point hs =>
    obtain ⟨-, -, rfl, rfl⟩ := set_eq_some_iff.1 hs
    exact ⟨⟨measures_zero _, measures_zero _⟩, Nat.zero_le _, Nat.zero_le _⟩

/-- The time moves to that of the change and never back; the periods stay as they are. -/
theorem Step.frame (step : Step clock change later) :
    clock.current ≤ later.current ∧ later.current = change.time ∧
      later.notificationPeriod = clock.notificationPeriod ∧ later.savePeriod = clock.savePeriod := by
  cases step with
  | advance delta hs =>
    obtain ⟨now, _, _, hnow, -, -, hsettle⟩ := advance_eq_ok_iff.1 hs
    obtain ⟨rfl, rfl⟩ := Prod.ext_iff.1 hsettle
    exact ⟨Duration.le_of_add_eq_ok hnow, rfl, rfl, rfl⟩
  | set point hs =>
    obtain ⟨-, hle, rfl, rfl⟩ := set_eq_some_iff.1 hs
    exact ⟨hle, rfl, rfl, rfl⟩

/-- A call leaves the range of time and is broken off. -/
inductive BreaksOff (clock later : Clock) : Prop where
  | advance (delta : Duration) (e : Duration.Overflow) (h : clock.advance delta = (.error e, later))
  | set (point : TimePoint) (e : Duration.Overflow) (h : clock.set point = (.error e, later))

/-- The time has moved on or not at all; the periods stay as they are. -/
theorem BreaksOff.frame (h : BreaksOff clock later) :
    clock.current ≤ later.current ∧ later.notificationPeriod = clock.notificationPeriod ∧
      later.savePeriod = clock.savePeriod := by
  cases h with
  | advance delta e hs =>
    rw [Clock.advance] at hs
    cases hnow : clock.current.add delta with
    | error e =>
      rw [hnow] at hs
      cases hs
      exact ⟨Nat.le_refl _, rfl, rfl⟩
    | ok now =>
      have hle : clock.current ≤ now := Duration.le_of_add_eq_ok hnow
      simp only [hnow] at hs
      split at hs
      · cases hs
        exact ⟨hle, rfl, rfl⟩
      · split at hs <;> cases hs
        exact ⟨hle, rfl, rfl⟩
  | set point e hs =>
    obtain ⟨hle, hjump⟩ := exists_set_eq_error_iff.1 ⟨e, later, hs⟩
    obtain ⟨_, _, hset, -⟩ := exists_set_eq_error hjump hle
    rw [hset] at hs
    cases hs
    exact ⟨hle, rfl, rfl⟩

end Clock

namespace HeardClock

variable {ν σ : Type} [FileStore σ]

/-- Which calls a run is made of. -/
inductive Calls where
  /-- Only calls that stay in the range of time. -/
  | inRange
  | any

/-- How a clock with its store comes from one state to another, with the changes that its calls carried out, latest
first: by calls, by somebody who begins to listen, and by changes that the store makes between the calls as far as
`disturbs` allows them. -/
inductive Run (calls : Calls) (disturbs : σ → σ → Prop) (start : HeardClock ν σ) :
    List Clock.Change → HeardClock ν σ → Prop where
  | start : Run calls disturbs start [] start
  | advance {changes : List Clock.Change} {c : HeardClock ν σ} {change : Clock.Change} (delta : Duration) :
      Run calls disturbs start changes c → (c.clock.advance delta).1 = .ok change →
      Run calls disturbs start (change :: changes) (c.advance delta).2
  | set {changes : List Clock.Change} {c : HeardClock ν σ} {change : Clock.Change} {later : Clock}
      (point : TimePoint) :
      Run calls disturbs start changes c → c.clock.set point = (.ok (some change), later) →
      Run calls disturbs start (change :: changes) (c.set point).2
  | refuse {changes : List Clock.Change} {c : HeardClock ν σ} (point : TimePoint) :
      Run calls disturbs start changes c → point.toDuration < c.clock.current →
      Run calls disturbs start changes (c.set point).2
  | breakOff {changes : List Clock.Change} {c : HeardClock ν σ} {later : Clock} : calls = .any →
      Run calls disturbs start changes c → c.clock.BreaksOff later →
      Run calls disturbs start changes { c with clock := later }
  | listen {changes : List Clock.Change} {c : HeardClock ν σ} (listener : ν) :
      Run calls disturbs start changes c → Run calls disturbs start changes (c.listen listener)
  | disturb {changes : List Clock.Change} {c : HeardClock ν σ} {store : σ} :
      Run calls disturbs start changes c → disturbs c.store store →
      Run calls disturbs start changes { c with store }

namespace Run

variable {calls : Calls} {disturbs : σ → σ → Prop} {start c : HeardClock ν σ} {changes : List Clock.Change}

/-- What holds at the start of a run, and is kept where a change is carried out, a call is broken off, somebody listens
or the store changes, holds all along the run. -/
theorem invariant {motive : List Clock.Change → HeardClock ν σ → Prop} (first : motive [] start)
    (carry : ∀ {changes c change later}, motive changes c → Clock.Step c.clock change later →
      motive (change :: changes) ({ c with clock := later }.carryOut change))
    (breakOff : ∀ {changes c later}, calls = .any → motive changes c → Clock.BreaksOff c.clock later →
      motive changes { c with clock := later })
    (listen : ∀ {changes c} (listener : ν), motive changes c → motive changes (c.listen listener))
    (disturb : ∀ {changes c store}, motive changes c → disturbs c.store store → motive changes { c with store })
    (run : Run calls disturbs start changes c) : motive changes c := by
  induction run with
  | start => exact first
  | advance delta _ hc ih =>
    rw [advance_of_ok hc]
    exact carry ih (.advance delta (Prod.ext hc rfl))
  | set point _ hc ih =>
    rw [set_of_some hc]
    exact carry ih (.set point hc)
  | refuse point _ hc ih =>
    rw [set_of_lt hc]
    exact ih
  | breakOff hany _ hc ih => exact breakOff hany ih hc
  | listen listener _ ih => exact listen listener ih
  | disturb _ hd ih => exact disturb ih hd

/-- A clock that starts on schedule stays on it. -/
theorem onSchedule {time : Duration} (h : start.clock.OnSchedule time [])
    (run : Run .inRange disturbs start changes c) :
    c.clock.OnSchedule time changes :=
  run.invariant (motive := fun changes c => c.clock.OnSchedule time changes) h
    (fun h step => step.onSchedule h) (fun hany => by cases hany) (fun _ h => h) (fun h _ => h)

theorem periods (run : Run calls disturbs start changes c) :
    c.clock.notificationPeriod = start.clock.notificationPeriod ∧ c.clock.savePeriod = start.clock.savePeriod := by
  refine run.invariant (motive := fun _ c => c.clock.notificationPeriod = start.clock.notificationPeriod ∧
    c.clock.savePeriod = start.clock.savePeriod) ⟨rfl, rfl⟩ ?_ ?_ (fun _ h => h) (fun h _ => h)
  · intro _ _ _ _ h step
    exact ⟨step.frame.2.2.1.trans h.1, step.frame.2.2.2.trans h.2⟩
  · intro _ _ _ _ h hbroken
    exact ⟨hbroken.frame.2.1.trans h.1, hbroken.frame.2.2.trans h.2⟩

theorem since_le {time : Duration} (h : start.clock.OnSchedule time [])
    (run : Run .inRange disturbs start changes c) :
    c.clock.sinceNotification ≤ start.clock.notificationPeriod ∧ c.clock.sinceSave ≤ start.clock.savePeriod := by
  rw [← run.periods.1, ← run.periods.2]
  exact ⟨(run.onSchedule h).sinceNotification_le, (run.onSchedule h).sinceSave_le⟩

/-- The time never goes back. -/
theorem current_le (run : Run calls disturbs start changes c) : start.clock.current ≤ c.clock.current := by
  refine run.invariant (motive := fun _ c => start.clock.current ≤ c.clock.current) (Nat.le_refl _) ?_ ?_
    (fun _ h => h) (fun h _ => h)
  · intro _ _ _ _ h step
    exact Nat.le_trans h step.frame.1
  · intro _ _ _ _ h hbroken
    exact Nat.le_trans h hbroken.frame.1

/-- The pulse fires once for each change that is announced. -/
theorem fired (run : Run calls disturbs start changes c) :
    c.tick.fired = start.tick.fired + changes.countP (·.announces) := by
  refine run.invariant (motive := fun changes c => c.tick.fired = start.tick.fired + changes.countP (·.announces)) rfl
    ?_ (fun _ h _ => h) (fun _ h => h) (fun h _ => h)
  intro changes c change later h _
  rw [fired_carryOut, List.countP_cons, ← Nat.add_assoc, ← h]

/-- The effects of an advance to a time, by the moments of the last announcement and the last save. -/
theorem advance_effects {time : Duration} (h : start.clock.OnSchedule time [])
    (run : Run .inRange disturbs start changes c) {delta now : Duration} (hnow : c.clock.current.add delta = .ok now) :
    ∃ later change, c.advance delta = (.ok (), { c with clock := later }.carryOut change) ∧ later.current = now ∧
      change.time = now ∧
      (change.announces = true ↔ start.clock.notificationPeriod <
        now - Clock.Change.lastTime (·.announces) time changes) ∧
      (change.saves = true ↔ start.clock.savePeriod < now - Clock.Change.lastTime (·.saves) time changes) := by
  have heq := (run.onSchedule h).toCounts.advance_eq hnow
  have hok : (c.clock.advance delta).1 = .ok (c.clock.movedTo time changes now).settle.1 := by rw [heq]
  refine ⟨_, _, advance_of_ok hok, ?_, rfl, ?_, ?_⟩
  · rw [heq]
    rfl
  · rw [← run.periods.1]
    exact decide_eq_true_iff
  · rw [← run.periods.2]
    exact decide_eq_true_iff

end Run

end HeardClock

end Spacecraft
