/-!
# Spans of time

A `Duration` counts nanoseconds and stays below `2 ^ 64` seconds.  Addition reports leaving that range instead of
wrapping (`add_eq_ok_iff`), subtraction stops at zero, and whole milliseconds are read off by rounding down.
-/

namespace Spacecraft

/-- A span of time in nanoseconds, below `2 ^ 64` seconds. -/
structure Duration where
  nanos : Nat
  nanos_lt : nanos < 18446744073709551616000000000
deriving DecidableEq

namespace Duration

/-- The sum of two spans is out of range. -/
structure Overflow where
deriving DecidableEq

/-- The short name of an overflow: nothing catches it on the way. -/
def Overflow.kind (_ : Overflow) : String := "panic"

/-- The words in which an overflow is reported. -/
def Overflow.message (_ : Overflow) : String :=
  "overflow when adding durations"

@[ext]
theorem ext {a b : Duration} (h : a.nanos = b.nanos) : a = b := by
  cases a; cases b; cases h; rfl

/-- The empty span. -/
def zero : Duration := ⟨0, by decide⟩

instance : Inhabited Duration := ⟨zero⟩

/-- One millisecond. -/
def millisecond : Duration := ⟨1000000, by decide⟩

/-- The longest span. -/
def longest : Duration := ⟨18446744073709551615999999999, by decide⟩

-- The numeral stands first in these products, and so does the second summand in `add`, where numerals come: on the
-- right it would be unfolded step by step when a span is evaluated.
/-- A whole number of milliseconds. -/
def ofMillis (n : UInt64) : Duration :=
  ⟨1000000 * n.toNat, by have := n.toNat_lt; omega⟩

/-- Seconds together with the nanoseconds of an unfinished second. -/
def ofParts (seconds : UInt64) (nanos : Fin 1000000000) : Duration :=
  ⟨1000000000 * seconds.toNat + nanos.val, by have := seconds.toNat_lt; omega⟩

/-- The whole seconds of a span. -/
def seconds (d : Duration) : Nat := d.nanos / 1000000000

/-- The nanoseconds beyond the whole seconds of a span. -/
def subsecond (d : Duration) : Nat := d.nanos % 1000000000

/-- The whole milliseconds of a span. -/
def millis (d : Duration) : Nat := d.nanos / 1000000

/-- The whole milliseconds of a span cut to a 64-bit word. -/
def millis64 (d : Duration) : UInt64 := UInt64.ofNat d.millis

/-- A span cut to whole milliseconds. -/
def wholeMillis (d : Duration) : Duration :=
  ⟨1000000 * d.millis, by have := d.nanos_lt; unfold millis; omega⟩

instance : LE Duration := ⟨fun a b => a.nanos ≤ b.nanos⟩

instance : LT Duration := ⟨fun a b => a.nanos < b.nanos⟩

instance (a b : Duration) : Decidable (a ≤ b) := inferInstanceAs (Decidable (a.nanos ≤ b.nanos))

instance (a b : Duration) : Decidable (a < b) := inferInstanceAs (Decidable (a.nanos < b.nanos))

theorem le_def {a b : Duration} : a ≤ b ↔ a.nanos ≤ b.nanos := Iff.rfl

theorem lt_def {a b : Duration} : a < b ↔ a.nanos < b.nanos := Iff.rfl

theorem not_lt {a b : Duration} : ¬ a < b ↔ b ≤ a := Nat.not_lt

/-- The difference of two spans, zero where the second is the longer. -/
def sub (a b : Duration) : Duration :=
  ⟨a.nanos - b.nanos, by have := a.nanos_lt; omega⟩

instance : Sub Duration := ⟨sub⟩

/-- The sum of two spans, refused out of range. -/
def add (a b : Duration) : Except Overflow Duration :=
  if h : b.nanos + a.nanos < 18446744073709551616000000000 then .ok ⟨b.nanos + a.nanos, h⟩ else .error ⟨⟩

@[simp]
theorem sub_nanos (a b : Duration) : (a - b).nanos = a.nanos - b.nanos := rfl

@[simp]
theorem zero_nanos : zero.nanos = 0 := rfl

@[simp]
theorem ofMillis_nanos (n : UInt64) : (ofMillis n).nanos = 1000000 * n.toNat := rfl

theorem add_eq_ok_iff {a b c : Duration} : a.add b = .ok c ↔ c.nanos = a.nanos + b.nanos := by
  unfold add
  split
  · rw [Except.ok.injEq, Duration.ext_iff, Nat.add_comm a.nanos]
    exact eq_comm
  · rename_i h
    have := c.nanos_lt
    simp
    omega

theorem add_eq_error_iff {a b : Duration} {e : Overflow} :
    a.add b = .error e ↔ 18446744073709551616000000000 ≤ a.nanos + b.nanos := by
  unfold add
  rw [Nat.add_comm a.nanos]
  split <;> simp_all

theorem le_of_add_eq_ok {a b c : Duration} (h : a.add b = .ok c) : a ≤ c := by
  rw [le_def, add_eq_ok_iff.1 h]
  exact Nat.le_add_right _ _

/-- A millisecond more is still in range. -/
def LeavesRoom (d : Duration) : Prop := d.nanos + millisecond.nanos < 18446744073709551616000000000

instance (d : Duration) : Decidable d.LeavesRoom := inferInstanceAs (Decidable (_ < _))

theorem leavesRoom_iff {d : Duration} : d.LeavesRoom ↔ ∃ later, d.add millisecond = .ok later := by
  constructor
  · intro h
    exact ⟨⟨d.nanos + millisecond.nanos, h⟩, add_eq_ok_iff.2 rfl⟩
  · rintro ⟨later, hlater⟩
    rw [LeavesRoom, ← add_eq_ok_iff.1 hlater]
    exact later.nanos_lt

theorem not_leavesRoom_iff {d : Duration} {e : Overflow} : ¬ d.LeavesRoom ↔ d.add millisecond = .error e := by
  rw [add_eq_error_iff, LeavesRoom, Nat.not_lt]

/-- What a 64-bit word of milliseconds can say leaves room for far more than one. -/
theorem leavesRoom_ofMillis (n : UInt64) : (ofMillis n).LeavesRoom := by
  have hlt := n.toNat_lt
  show 1000000 * n.toNat + 1000000 < _
  omega

/-- Adding to the shorter of two spans stays in range where adding to the longer one does. -/
theorem add_of_le {a b delta later : Duration} (h : a ≤ b) (hlater : b.add delta = .ok later) :
    ∃ sum, a.add delta = .ok sum ∧ sum ≤ later := by
  have hsum := add_eq_ok_iff.1 hlater
  have hlt := later.nanos_lt
  rw [le_def] at h
  refine ⟨⟨a.nanos + delta.nanos, by omega⟩, add_eq_ok_iff.2 rfl, ?_⟩
  show a.nanos + delta.nanos ≤ later.nanos
  omega

@[simp]
theorem millis_ofMillis (n : UInt64) : (ofMillis n).millis = n.toNat := by
  simp [millis]

@[simp]
theorem millis64_ofMillis (n : UInt64) : (ofMillis n).millis64 = n := by
  simp [millis64]

@[simp]
theorem wholeMillis_ofMillis (n : UInt64) : (ofMillis n).wholeMillis = ofMillis n := by
  apply Duration.ext
  simp [wholeMillis]

/-- A span of less than `2 ^ 64` milliseconds comes back from its 64-bit word, cut to whole milliseconds. -/
theorem ofMillis_millis64 {d : Duration} (h : d.millis < UInt64.size) : ofMillis d.millis64 = d.wholeMillis := by
  apply Duration.ext
  show 1000000 * (UInt64.ofNat d.millis).toNat = 1000000 * d.millis
  rw [UInt64.toNat_ofNat_of_lt' h]

theorem wholeMillis_le (d : Duration) : d.wholeMillis ≤ d := Nat.mul_div_le _ _

/-- Less than a millisecond is cut off. -/
theorem lt_wholeMillis (d : Duration) : d.nanos < d.wholeMillis.nanos + millisecond.nanos := by
  show d.nanos < 1000000 * (d.nanos / 1000000) + 1000000
  omega

theorem millis_lt (d : Duration) : d.millis < 18446744073709551616000 := by
  have hlt := d.nanos_lt
  rw [millis]
  omega

theorem millis_mono {a b : Duration} (h : a ≤ b) : a.millis ≤ b.millis := Nat.div_le_div_right h

end Duration

end Spacecraft
