import Spacecraft.Clock.Copies
import Spacecraft.Clock.TimePoint
import Spacecraft.Config.Mission

/-!
# The mission clock

The clock only moves forward.  A change happens in two steps: first the counters move, which settles whether the new
time has to be announced and saved (`Clock.advance`, `Clock.set`); then the change is carried out (`Clock.Change.save`
and the announcement).  A change is announced once strictly more than the notification period lies behind the last
announcement, and saved by the same rule with the save period.  A jump puts both counters a millisecond beyond their
periods, which makes it both (`set_eq_some_iff`).

Counters move one after the other, up to the first sum that leaves its range; what has moved by then stays moved.
-/

namespace Spacecraft

/-- The time and what has passed since it was last announced and saved. -/
structure Clock where
  current : Duration
  sinceNotification : Duration
  sinceSave : Duration
  notificationPeriod : Duration
  savePeriod : Duration
deriving DecidableEq

namespace Clock

/-- What is still to be done about a new time. -/
structure Change where
  time : Duration
  announces : Bool
  saves : Bool
deriving DecidableEq

/-- A clock that starts at a time. -/
def startingAt (time : Duration) (config : MissionConfig) : Clock where
  current := time
  sinceNotification := .zero
  sinceSave := .zero
  notificationPeriod := config.clockNotificationPeriod
  savePeriod := config.clockSavePeriod

/-- A clock that starts at the time kept in a store. -/
def boot {σ : Type} [FileStore σ] (config : MissionConfig) (store : σ) : Clock :=
  startingAt (TimeCopies.recover store) config

/-- What has to be done about the current time, and the clock that counts on from there. -/
def settle (clock : Clock) : Change × Clock :=
  let announces := decide (clock.notificationPeriod < clock.sinceNotification)
  let saves := decide (clock.savePeriod < clock.sinceSave)
  (⟨clock.current, announces, saves⟩,
    { clock with
      sinceNotification := if announces then .zero else clock.sinceNotification
      sinceSave := if saves then .zero else clock.sinceSave })

/-- Let time pass. -/
def advance (delta : Duration) (clock : Clock) : Except Duration.Overflow Change × Clock :=
  match clock.current.add delta with
  | .error e => (.error e, clock)
  | .ok current =>
    let clock := { clock with current }
    match clock.sinceNotification.add delta with
    | .error e => (.error e, clock)
    | .ok sinceNotification =>
      let clock := { clock with sinceNotification }
      match clock.sinceSave.add delta with
      | .error e => (.error e, clock)
      | .ok sinceSave =>
        let (change, clock) := settle { clock with sinceSave }
        (.ok change, clock)

/-- Jump to a point of time; there is no change where that lies in the past. -/
def set (point : TimePoint) (clock : Clock) : Except Duration.Overflow (Option Change) × Clock :=
  if point.toDuration < clock.current then (.ok none, clock)
  else
    let clock := { clock with current := point.toDuration }
    match clock.notificationPeriod.add .millisecond with
    | .error e => (.error e, clock)
    | .ok sinceNotification =>
      let clock := { clock with sinceNotification }
      match clock.savePeriod.add .millisecond with
      | .error e => (.error e, clock)
      | .ok sinceSave =>
        let (change, clock) := settle { clock with sinceSave }
        (.ok (some change), clock)

/-- The counters can be put a millisecond beyond their periods. -/
structure CanJump (clock : Clock) : Prop where
  notification : clock.notificationPeriod.LeavesRoom
  save : clock.savePeriod.LeavesRoom

instance (clock : Clock) : Decidable clock.CanJump :=
  decidable_of_iff (clock.notificationPeriod.LeavesRoom ∧ clock.savePeriod.LeavesRoom)
    ⟨fun h => ⟨h.1, h.2⟩, fun h => ⟨h.notification, h.save⟩⟩

/-- Mission time has come to a target. -/
def reached (target : Duration) (clock : Clock) : Bool := decide (target ≤ clock.current)

/-- The time that lies a delay ahead. -/
def after (delay : Duration) (clock : Clock) : Except Duration.Overflow Duration := clock.current.add delay

/-- The current time as a calendar. -/
def point (clock : Clock) : TimePoint := .ofDuration clock.current

namespace Change

/-- The point of time to announce, if there is one. -/
def announcement? (change : Change) : Option TimePoint :=
  if change.announces then some (.ofDuration change.time) else none

/-- Save the new time if it is due. -/
def save {σ : Type} [FileStore σ] (change : Change) (store : σ) : σ :=
  if change.saves then TimeCopies.save change.time store else store

end Change

/-- An advance goes through where all three counters stay in range; it settles the clock with the counters moved. -/
theorem advance_eq_ok_iff {clock later : Clock} {delta : Duration} {change : Change} :
    clock.advance delta = (.ok change, later) ↔
      ∃ current sinceNotification sinceSave, clock.current.add delta = .ok current ∧
        clock.sinceNotification.add delta = .ok sinceNotification ∧ clock.sinceSave.add delta = .ok sinceSave ∧
        settle { clock with current, sinceNotification, sinceSave } = (change, later) := by
  unfold advance
  cases hc : clock.current.add delta with
  | error e => simp
  | ok current =>
    cases hn : clock.sinceNotification.add delta with
    | error e => simp [hn]
    | ok sinceNotification =>
      cases hs : clock.sinceSave.add delta with
      | error e => simp [hn, hs]
      | ok sinceSave => simp [hn, hs, Prod.ext_iff]

theorem advance_of_error {clock : Clock} {delta : Duration} {e : Duration.Overflow}
    (h : clock.current.add delta = .error e) : clock.advance delta = (.error e, clock) := by
  rw [advance, h]

/-- A change whose counters lie beyond their periods is announced and saved. -/
private theorem settle_of_lt {clock : Clock} (hnotification : clock.notificationPeriod < clock.sinceNotification)
    (hsave : clock.savePeriod < clock.sinceSave) :
    settle clock = (⟨clock.current, true, true⟩, { clock with sinceNotification := .zero, sinceSave := .zero }) := by
  simp [settle, hnotification, hsave]

/-- A jump goes through where it does not lead into the past and both counters can be put beyond their periods; it is
announced and saved. -/
theorem set_of_le {clock : Clock} {point : TimePoint} (h : clock.CanJump) (hle : clock.current ≤ point.toDuration) :
    clock.set point = (.ok (some ⟨point.toDuration, true, true⟩),
      { clock with current := point.toDuration, sinceNotification := .zero, sinceSave := .zero }) := by
  obtain ⟨sinceNotification, hnotification⟩ := Duration.leavesRoom_iff.1 h.notification
  obtain ⟨sinceSave, hsave⟩ := Duration.leavesRoom_iff.1 h.save
  have hbeyond {period counter : Duration} (hcounter : period.add .millisecond = .ok counter) : period < counter := by
    rw [Duration.lt_def, Duration.add_eq_ok_iff.1 hcounter]
    exact Nat.lt_add_of_pos_right (by decide)
  have hsettle : settle { clock with current := point.toDuration, sinceNotification, sinceSave } = _ :=
    settle_of_lt (hbeyond hnotification) (hbeyond hsave)
  rw [set, if_neg (Duration.not_lt.2 hle)]
  simp only [hnotification, hsave, hsettle]

theorem set_of_lt {clock : Clock} {point : TimePoint} (hlt : point.toDuration < clock.current) :
    clock.set point = (.ok none, clock) := if_pos hlt

/-- A jump out of range has moved the time, and then the first counter if that stays in range. -/
theorem exists_set_eq_error {clock : Clock} {point : TimePoint} (h : ¬ clock.CanJump)
    (hle : clock.current ≤ point.toDuration) :
    ∃ e sinceNotification, clock.set point = (.error e, { clock with current := point.toDuration, sinceNotification }) ∧
      (sinceNotification = clock.sinceNotification ∨
        clock.notificationPeriod.add .millisecond = .ok sinceNotification ∧ ¬ clock.savePeriod.LeavesRoom) := by
  cases hnotification : clock.notificationPeriod.add .millisecond with
  | error e =>
    refine ⟨e, clock.sinceNotification, ?_, .inl rfl⟩
    rw [set, if_neg (Duration.not_lt.2 hle)]
    simp only [hnotification]
  | ok sinceNotification =>
    cases hsave : clock.savePeriod.add .millisecond with
    | error e =>
      refine ⟨e, sinceNotification, ?_, .inr ⟨rfl, Duration.not_leavesRoom_iff.2 hsave⟩⟩
      rw [set, if_neg (Duration.not_lt.2 hle)]
      simp only [hnotification, hsave]
    | ok sinceSave =>
      exact absurd ⟨Duration.leavesRoom_iff.2 ⟨_, hnotification⟩, Duration.leavesRoom_iff.2 ⟨_, hsave⟩⟩ h

/-- A jump is refused and changes nothing, goes through, or leaves the range of time. -/
theorem set_cases (clock : Clock) (point : TimePoint) :
    point.toDuration < clock.current ∧ clock.set point = (.ok none, clock) ∨
      (clock.CanJump ∧ clock.current ≤ point.toDuration ∧
        clock.set point = (.ok (some ⟨point.toDuration, true, true⟩),
          { clock with current := point.toDuration, sinceNotification := .zero, sinceSave := .zero })) ∨
      (¬ clock.CanJump ∧ clock.current ≤ point.toDuration ∧ ∃ e sinceNotification,
        clock.set point = (.error e, { clock with current := point.toDuration, sinceNotification })) := by
  by_cases hlt : point.toDuration < clock.current
  · exact .inl ⟨hlt, set_of_lt hlt⟩
  · have hle := Duration.not_lt.1 hlt
    by_cases hjump : clock.CanJump
    · exact .inr (.inl ⟨hjump, hle, set_of_le hjump hle⟩)
    · obtain ⟨e, sinceNotification, hset, -⟩ := exists_set_eq_error hjump hle
      exact .inr (.inr ⟨hjump, hle, e, sinceNotification, hset⟩)

theorem set_eq_some_iff {clock later : Clock} {point : TimePoint} {change : Change} :
    clock.set point = (.ok (some change), later) ↔
      clock.CanJump ∧ clock.current ≤ point.toDuration ∧ change = ⟨point.toDuration, true, true⟩ ∧
        later = { clock with current := point.toDuration, sinceNotification := .zero, sinceSave := .zero } := by
  constructor
  · intro h
    rcases clock.set_cases point with ⟨-, hset⟩ | ⟨hjump, hle, hset⟩ | ⟨-, -, e, _, hset⟩ <;> rw [hset] at h <;> cases h
    exact ⟨hjump, hle, rfl, rfl⟩
  · rintro ⟨hjump, hle, rfl, rfl⟩
    exact set_of_le hjump hle

theorem set_eq_none_iff {clock later : Clock} {point : TimePoint} :
    clock.set point = (.ok none, later) ↔ point.toDuration < clock.current ∧ later = clock := by
  constructor
  · intro h
    rcases clock.set_cases point with ⟨hlt, hset⟩ | ⟨-, -, hset⟩ | ⟨-, -, e, _, hset⟩ <;> rw [hset] at h <;> cases h
    exact ⟨hlt, rfl⟩
  · rintro ⟨hlt, rfl⟩
    exact set_of_lt hlt

theorem exists_set_eq_error_iff {clock : Clock} {point : TimePoint} :
    (∃ e later, clock.set point = (.error e, later)) ↔ clock.current ≤ point.toDuration ∧ ¬ clock.CanJump := by
  constructor
  · rintro ⟨e, later, h⟩
    rcases clock.set_cases point with ⟨-, hset⟩ | ⟨-, -, hset⟩ | ⟨hjump, hle, -⟩
    · rw [hset] at h
      cases h
    · rw [hset] at h
      cases h
    · exact ⟨hle, hjump⟩
  · rintro ⟨hle, hjump⟩
    obtain ⟨e, _, hset, -⟩ := exists_set_eq_error hjump hle
    exact ⟨e, _, hset⟩

end Clock

end Spacecraft
