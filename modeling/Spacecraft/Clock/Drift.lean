import Spacecraft.Clock.Basic
import Spacecraft.Fault.DeviceError
import Spacecraft.Snapshot

/-!
# Correcting the clock

From time to time the span that the mission clock measured since the last correction is averaged with the span that an
external clock measured, and the mission clock is moved forward to the average.  It is never moved back.
-/

namespace Spacecraft

/-- A clock that tasks can read and move. -/
class SettableClock (κ : Type) where
  /-- The time, if the clock can be read. -/
  now? : κ → Option Duration
  /-- Jump to a point of time; the answer tells whether the clock did. -/
  set : TimePoint → κ → Except Duration.Overflow Bool × κ

/-- Readings of both clocks taken together. -/
structure ClockPair where
  mission : Duration
  external : Duration
deriving DecidableEq

/-- The correction of the mission clock. -/
structure DriftCorrection where
  /-- The readings at the last correction. -/
  reference : Option ClockPair
  period : Duration
  missionWeight : UInt32
  externalWeight : UInt32
deriving DecidableEq

namespace DriftCorrection

/-- A correction that has not seen the external clock yet. -/
def fresh (config : MissionConfig) : DriftCorrection :=
  ⟨none, config.correctionPeriod, config.missionWeight, config.externalWeight⟩

/-- The name of the action. -/
def actionName : String := "Correct time"

/-- The name of the update. -/
def updateName : String := "Time"

/-- The weighted average of two spans in whole milliseconds, cut to 64 bits; without weights the first span. -/
def average (missionWeight externalWeight : UInt32) (mission external : Duration) : Duration :=
  let weights := missionWeight.toNat + externalWeight.toNat
  if weights = 0 then mission
  else
    .ofMillis (UInt64.ofNat
      ((mission.millis * missionWeight.toNat + external.millis * externalWeight.toNat) / weights))

/-- Fill the time into the snapshot. -/
def update {κ : Type} [SettableClock κ] (clock : κ) (snapshot : Snapshot) : UpdateResult × Snapshot :=
  match SettableClock.now? clock with
  | some time => (.ok, { snapshot with time })
  | none => (.warning, snapshot)

/-- A correction is due. -/
def condition (snapshot : Snapshot) (task : DriftCorrection) : Bool :=
  match task.reference with
  | none => true
  | some reference => decide (task.period ≤ snapshot.time - reference.mission)

/-- The time that the mission clock should show. -/
def corrected (task : DriftCorrection) (previous now : ClockPair) : Except Duration.Overflow Duration :=
  previous.mission.add (average task.missionWeight task.externalWeight (now.mission - previous.mission)
    (now.external - previous.external))

/-- Take both readings and correct the mission clock.  Without a reading of the external clock nothing happens; the
first readings only become the reference.  Where a sum leaves the range of time the reference stays as it is. -/
def execute {κ : Type} [SettableClock κ] (external : Except DeviceError Duration) (snapshot : Snapshot)
    (clock : κ) (task : DriftCorrection) : Except Duration.Overflow Unit × κ × DriftCorrection :=
  match external with
  | .error _ => (.ok (), clock, task)
  | .ok external =>
    let now : ClockPair := ⟨(SettableClock.now? clock).getD snapshot.time, external⟩
    match task.reference with
    | none => (.ok (), clock, { task with reference := some now })
    | some previous =>
      match task.corrected previous now with
      | .error e => (.error e, clock, task)
      | .ok corrected =>
        if now.mission < corrected then
          match SettableClock.set (.ofDuration corrected) clock with
          | (.error e, clock) => (.error e, clock, task)
          | (.ok accepted, clock) =>
            let mission := if accepted then corrected else now.mission
            (.ok (), clock, { task with reference := some ⟨mission, external⟩ })
        else (.ok (), clock, { task with reference := some now })

end DriftCorrection

end Spacecraft
