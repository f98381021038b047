import Spacecraft.Duration

/-!
# Mission time as a calendar

A time point splits a number of milliseconds into days, hours, minutes, seconds and milliseconds.  The number is cut
to 64 bits on the way in and the day to 32.
-/

namespace Spacecraft

/-- A point of mission time, written as a calendar. -/
structure TimePoint where
  day : UInt32
  hour : UInt8
  minute : UInt8
  second : UInt8
  millisecond : UInt16
deriving DecidableEq, Repr

namespace TimePoint

/-- The point that lies a number of milliseconds after the start of the mission. -/
def ofMillis (total : UInt64) : TimePoint where
  day := UInt32.ofNat (total.toNat / 86400000)
  hour := UInt8.ofNat (total.toNat % 86400000 / 3600000)
  minute := UInt8.ofNat (total.toNat % 3600000 / 60000)
  second := UInt8.ofNat (total.toNat % 60000 / 1000)
  millisecond := UInt16.ofNat (total.toNat % 1000)

/-- The point that lies a span of time after the start of the mission. -/
def ofDuration (span : Duration) : TimePoint := ofMillis span.millis64

/-- The number of milliseconds that calendar parts add up to. -/
def totalMillis (day hour minute second millisecond : Nat) : Nat :=
  86400000 * day + 3600000 * hour + 60000 * minute + 1000 * second + millisecond

/-- The point that calendar parts of any size add up to. -/
def ofParts (day hour minute second millisecond : UInt32) : TimePoint :=
  ofMillis (UInt64.ofNat (totalMillis day.toNat hour.toNat minute.toNat second.toNat millisecond.toNat))

/-- The number of milliseconds from the start of the mission. -/
def millis (point : TimePoint) : Nat :=
  totalMillis point.day.toNat point.hour.toNat point.minute.toNat point.second.toNat point.millisecond.toNat

/-- The span of time from the start of the mission. -/
def toDuration (point : TimePoint) : Duration := .ofMillis (UInt64.ofNat point.millis)

/-- Every part is below what carries into the next. -/
def Normalised (point : TimePoint) : Prop :=
  point.hour < 24 ∧ point.minute < 60 ∧ point.second < 60 ∧ point.millisecond < 1000

instance (point : TimePoint) : Decidable point.Normalised := inferInstanceAs (Decidable (_ ∧ _ ∧ _ ∧ _))

/-- The order of points, part by part from the day on. -/
def compare (a b : TimePoint) : Ordering :=
  (Ord.compare a.day b.day).then <| (Ord.compare a.hour b.hour).then <| (Ord.compare a.minute b.minute).then <|
    (Ord.compare a.second b.second).then (Ord.compare a.millisecond b.millisecond)

theorem toNat_day_ofMillis (total : UInt64) : (ofMillis total).day.toNat = total.toNat / 86400000 % 4294967296 :=
  UInt32.toNat_ofNat'

theorem toNat_hour_ofMillis (total : UInt64) : (ofMillis total).hour.toNat = total.toNat % 86400000 / 3600000 :=
  UInt8.toNat_ofNat_of_lt' (by simp only [UInt8.size]; omega)

theorem toNat_minute_ofMillis (total : UInt64) : (ofMillis total).minute.toNat = total.toNat % 3600000 / 60000 :=
  UInt8.toNat_ofNat_of_lt' (by simp only [UInt8.size]; omega)

theorem toNat_second_ofMillis (total : UInt64) : (ofMillis total).second.toNat = total.toNat % 60000 / 1000 :=
  UInt8.toNat_ofNat_of_lt' (by simp only [UInt8.size]; omega)

theorem toNat_millisecond_ofMillis (total : UInt64) : (ofMillis total).millisecond.toNat = total.toNat % 1000 :=
  UInt16.toNat_ofNat_of_lt' (by simp only [UInt16.size]; omega)

/-- A point lies where it was asked for, but for whole multiples of `2 ^ 32` days. -/
theorem millis_ofMillis_mod (total : UInt64) : (ofMillis total).millis = total.toNat % (4294967296 * 86400000) := by
  rw [millis, totalMillis, toNat_day_ofMillis, toNat_hour_ofMillis, toNat_minute_ofMillis, toNat_second_ofMillis,
    toNat_millisecond_ofMillis]
  omega

/-- A point that lies less than `2 ^ 32` days after the start of the mission lies where it was asked for. -/
theorem millis_ofMillis {total : UInt64} (h : total.toNat < 4294967296 * 86400000) :
    (ofMillis total).millis = total.toNat := by
  rw [millis_ofMillis_mod, Nat.mod_eq_of_lt h]

theorem millis_ofDuration {span : Duration} (h : span.millis < 4294967296 * 86400000) :
    (ofDuration span).millis = span.millis := by
  have hword : span.millis64.toNat = span.millis := UInt64.toNat_ofNat_of_lt' (by simp only [UInt64.size]; omega)
  rw [ofDuration, millis_ofMillis (hword ▸ h), hword]

end TimePoint

end Spacecraft
