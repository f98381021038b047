import Mathlib.Algebra.Group.Nat.Defs
import Spacecraft.Clock.TimePoint

/-!
# Time points as a calendar

Below `2 ^ 32` days a span cut to whole milliseconds and its normalised point determine each other: the parts of the
point are the digits of the number of milliseconds, and reading them together gives the number back
(`ofMillis_millis`).  Of two numbers the smaller is the one that is smaller in the first digit in which they differ, so
points part by part are ordered as the spans are (`millis_lt_iff`).
-/

namespace Spacecraft

namespace TimePoint

private theorem normalised_iff {point : TimePoint} :
    point.Normalised ↔ point.hour.toNat < 24 ∧ point.minute.toNat < 60 ∧ point.second.toNat < 60 ∧
      point.millisecond.toNat < 1000 := by
  simp only [Normalised, UInt8.lt_iff_toNat_lt, UInt16.lt_iff_toNat_lt]
  rfl

private theorem ext_toNat {p q : TimePoint} (hday : p.day.toNat = q.day.toNat) (hhour : p.hour.toNat = q.hour.toNat)
    (hminute : p.minute.toNat = q.minute.toNat) (hsecond : p.second.toNat = q.second.toNat)
    (hmillisecond : p.millisecond.toNat = q.millisecond.toNat) : p = q := by
  rw [UInt32.toNat_inj] at hday
  rw [UInt8.toNat_inj] at hhour hminute hsecond
  rw [UInt16.toNat_inj] at hmillisecond
  cases p
  cases q
  rw [mk.injEq]
  exact ⟨hday, hhour, hminute, hsecond, hmillisecond⟩

/-! ### From a number to a point -/

private theorem normalised_ofMillis (total : UInt64) : (ofMillis total).Normalised := by
  rw [normalised_iff, toNat_hour_ofMillis, toNat_minute_ofMillis, toNat_second_ofMillis, toNat_millisecond_ofMillis]
  omega

/-- Parts of up to 32 bits add up within 64 bits. -/
private theorem totalMillis_lt {day hour minute second millisecond : Nat} (hday : day < 2 ^ 32) (hhour : hour < 2 ^ 32)
    (hminute : minute < 2 ^ 32) (hsecond : second < 2 ^ 32) (hmillisecond : millisecond < 2 ^ 32) :
    totalMillis day hour minute second millisecond < UInt64.size := by
  simp only [totalMillis, UInt64.size]
  omega

theorem millis_lt (point : TimePoint) : point.millis < UInt64.size := by
  have hhour := point.hour.toNat_lt
  have hminute := point.minute.toNat_lt
  have hsecond := point.second.toNat_lt
  have hmillisecond := point.millisecond.toNat_lt
  exact totalMillis_lt point.day.toNat_lt (by omega) (by omega) (by omega) (by omega)

private theorem nanos_toDuration (point : TimePoint) : point.toDuration.nanos = 1000000 * point.millis := by
  rw [toDuration, Duration.ofMillis_nanos, UInt64.toNat_ofNat_of_lt' point.millis_lt]

theorem toDuration_ofDuration {span : Duration} (h : span.millis < 4294967296 * 86400000) :
    (ofDuration span).toDuration = span.wholeMillis := by
  apply Duration.ext
  rw [nanos_toDuration, millis_ofDuration h, Duration.wholeMillis]

theorem ofMillis_millis {point : TimePoint} (h : point.Normalised) : ofMillis (.ofNat point.millis) = point := by
  obtain ⟨hhour, hminute, hsecond, hmillisecond⟩ := normalised_iff.1 h
  -- The days need no modulus: a point has at most `2 ^ 32` of them.
  have hday := point.day.toNat_lt
  have htotal : (UInt64.ofNat point.millis).toNat = 86400000 * point.day.toNat + 3600000 * point.hour.toNat +
      60000 * point.minute.toNat + 1000 * point.second.toNat + point.millisecond.toNat :=
    UInt64.toNat_ofNat_of_lt' point.millis_lt
  apply ext_toNat
  · rw [toNat_day_ofMillis, htotal]
    omega
  · rw [toNat_hour_ofMillis, htotal]
    omega
  · rw [toNat_minute_ofMillis, htotal]
    omega
  · rw [toNat_second_ofMillis, htotal]
    omega
  · rw [toNat_millisecond_ofMillis, htotal]
    omega

private theorem ofDuration_toDuration {point : TimePoint} (h : point.Normalised) :
    ofDuration point.toDuration = point := by
  rw [ofDuration, toDuration, Duration.millis64_ofMillis, ofMillis_millis h]

private theorem totalMillis_toNat_lt (day hour minute second millisecond : UInt32) :
    totalMillis day.toNat hour.toNat minute.toNat second.toNat millisecond.toNat < UInt64.size :=
  totalMillis_lt day.toNat_lt hour.toNat_lt minute.toNat_lt second.toNat_lt millisecond.toNat_lt

private theorem millis_ofParts {day hour minute second millisecond : UInt32}
    (h : totalMillis day.toNat hour.toNat minute.toNat second.toNat millisecond.toNat < 4294967296 * 86400000) :
    (ofParts day hour minute second millisecond).millis =
      totalMillis day.toNat hour.toNat minute.toNat second.toNat millisecond.toNat := by
  have hword := UInt64.toNat_ofNat_of_lt' (totalMillis_toNat_lt day hour minute second millisecond)
  rw [ofParts, millis_ofMillis (by rwa [hword]), hword]

/-! ### Order -/

private theorem compare_eq_lt_iff {p q : TimePoint} :
    compare p q = .lt ↔ p.day.toNat < q.day.toNat ∨ p.day.toNat = q.day.toNat ∧
      (p.hour.toNat < q.hour.toNat ∨ p.hour.toNat = q.hour.toNat ∧
        (p.minute.toNat < q.minute.toNat ∨ p.minute.toNat = q.minute.toNat ∧
          (p.second.toNat < q.second.toNat ∨ p.second.toNat = q.second.toNat ∧
            p.millisecond.toNat < q.millisecond.toNat))) := by
  simp only [compare, Ordering.then_eq_lt, Std.compare_eq_lt, Std.compare_eq_iff_eq, UInt32.lt_iff_toNat_lt,
    UInt8.lt_iff_toNat_lt, UInt16.lt_iff_toNat_lt, UInt32.toNat_inj, UInt8.toNat_inj]

/-- Among normalised points the first part that differs outweighs all later ones. -/
theorem millis_lt_iff {p q : TimePoint} (hp : p.Normalised) (hq : q.Normalised) :
    p.millis < q.millis ↔ compare p q = .lt := by
  rw [normalised_iff] at hp hq
  rw [compare_eq_lt_iff, millis, millis, totalMillis, totalMillis]
  omega

/-! ### The calendar -/

/-- Spans below `2 ^ 32` days and normalised points.  The point of a span is normalised, and its span is the one that
it was made of, cut to whole milliseconds; a normalised point is the point of its span.  Normalised points are ordered
part by part as their spans are.  Parts of any size add up within 64 bits, and below `2 ^ 32` days the point made of
them is normalised and lies where they add up to. -/
theorem faithful_calendar :
    (∀ span : Duration, span.millis < 4294967296 * 86400000 →
      (ofDuration span).Normalised ∧ (ofDuration span).toDuration = span.wholeMillis) ∧
    (∀ point : TimePoint, point.Normalised → ofDuration point.toDuration = point) ∧
    (∀ p q : TimePoint, p.Normalised → q.Normalised → (compare p q = .lt ↔ p.toDuration < q.toDuration)) ∧
    (∀ day hour minute second millisecond : UInt32,
      let total := totalMillis day.toNat hour.toNat minute.toNat second.toNat millisecond.toNat
      let point := ofParts day hour minute second millisecond
      total < UInt64.size ∧
        (total < 4294967296 * 86400000 → point.Normalised ∧ point.toDuration.nanos = 1000000 * total)) := by
  refine ⟨fun span hspan => ⟨normalised_ofMillis _, toDuration_ofDuration hspan⟩,
    fun point hpoint => ofDuration_toDuration hpoint, fun p q hp hq => ?_,
    fun day hour minute second millisecond => ⟨totalMillis_toNat_lt day hour minute second millisecond, fun htotal => ?_⟩⟩
  · rw [← millis_lt_iff hp hq, Duration.lt_def, nanos_toDuration, nanos_toDuration]
    omega
  · refine ⟨normalised_ofMillis _, ?_⟩
    rw [nanos_toDuration, millis_ofParts htotal]

/-- The last millisecond before the second day, and what carries into it. -/
theorem faithful_calendar_at_midnight :
    let last : TimePoint := ⟨0, 23, 59, 59, 999⟩
    let midnight : TimePoint := ⟨1, 0, 0, 0, 0⟩
    (compare last midnight = .lt ↔ last.toDuration < midnight.toDuration) ∧ ofDuration last.toDuration = last ∧
      (ofDuration ⟨86399999999999, by decide⟩).toDuration = .ofMillis 86399999 ∧
      (ofParts 0 22 118 119 1000).toDuration.nanos = midnight.toDuration.nanos := by
  intro last midnight
  obtain ⟨hspans, hpoints, horder, hparts⟩ := faithful_calendar
  refine ⟨horder last midnight (by decide) (by decide), hpoints last (by decide), ?_, ?_⟩
  · exact (hspans ⟨86399999999999, by decide⟩ (by decide)).2
  · exact ((hparts 0 22 118 119 1000).2 (by decide)).2

end TimePoint

end Spacecraft
