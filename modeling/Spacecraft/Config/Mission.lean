import Spacecraft.Duration

/-!
# The mission configuration

The values an operator may change before a boot.  Each has a name of its own (`Field`), under which a document holds it
as a number.  The number of a span of time is its whole milliseconds in a word of 64 bits, so that spans of whole
milliseconds below that come back from a document (`value_set_get`).
-/

namespace Spacecraft

/-- The values an operator may change before a boot. -/
structure MissionConfig where
  /-- The time from the start of one mission pass to the next. -/
  tickPeriod : Duration
  /-- The mission time from which antennas may be released. -/
  antennaThreshold : Duration
  /-- How long the release of one antenna may burn. -/
  antennaStepTimeout : Duration
  /-- How long the release of all antennas in sequence may burn. -/
  antennaAutoTimeout : Duration
  /-- The mission time from which the sail may be opened. -/
  sailThreshold : Duration
  /-- The clock announces the time when more than this has passed. -/
  clockNotificationPeriod : Duration
  /-- The clock saves the time when more than this has passed. -/
  clockSavePeriod : Duration
  /-- The time between two corrections of the clock. -/
  correctionPeriod : Duration
  /-- The weight of the mission clock in a correction. -/
  missionWeight : UInt32
  /-- The weight of the external clock in a correction. -/
  externalWeight : UInt32
  /-- The time between two telemetry records. -/
  telemetryPeriod : Duration
  /-- The size from which a telemetry file is put aside. -/
  telemetryMaxFileSize : UInt64
  /-- The number of terms the Fibonacci experiment computes. -/
  fibonacciTerms : UInt32
deriving DecidableEq

namespace MissionConfig

/-- The configuration of a flight without changes. -/
def standard : MissionConfig where
  tickPeriod := .ofMillis 1000
  antennaThreshold := .ofMillis 2400000
  antennaStepTimeout := .ofMillis 9000
  antennaAutoTimeout := .ofMillis 36000
  sailThreshold := .ofMillis 3456000000
  clockNotificationPeriod := .ofMillis 10000
  clockSavePeriod := .ofMillis 900000
  correctionPeriod := .ofMillis 900000
  missionWeight := 1
  externalWeight := 1
  telemetryPeriod := .ofMillis 30000
  telemetryMaxFileSize := 65536
  fibonacciTerms := 10

instance : Inhabited MissionConfig := ⟨standard⟩

/-- The name of a value. -/
inductive Field where
  | tickPeriod
  | antennaThreshold
  | antennaStepTimeout
  | antennaAutoTimeout
  | sailThreshold
  | clockNotificationPeriod
  | clockSavePeriod
  | correctionPeriod
  | missionWeight
  | externalWeight
  | telemetryPeriod
  | telemetryMaxFileSize
  | fibonacciTerms
deriving DecidableEq, Repr

namespace Field

/-- All values in the order in which they are written. -/
def all : List Field :=
  [tickPeriod, antennaThreshold, antennaStepTimeout, antennaAutoTimeout, sailThreshold, clockNotificationPeriod,
    clockSavePeriod, correctionPeriod, missionWeight, externalWeight, telemetryPeriod, telemetryMaxFileSize,
    fibonacciTerms]

/-- The member name of a value in a document. -/
def key : Field → String
  | tickPeriod => "tick_period"
  | antennaThreshold => "antenna_deployment_threshold"
  | antennaStepTimeout => "antenna_step_timeout"
  | antennaAutoTimeout => "antenna_auto_timeout"
  | sailThreshold => "sail_deployment_threshold"
  | clockNotificationPeriod => "clock_notification_period"
  | clockSavePeriod => "clock_save_period"
  | correctionPeriod => "rtc_correction_period"
  | missionWeight => "rtc_mission_time_weight"
  | externalWeight => "rtc_external_time_weight"
  | telemetryPeriod => "telemetry_save_period"
  | telemetryMaxFileSize => "telemetry_max_file_size"
  | fibonacciTerms => "fibo_iterations"

/-- The value is kept in 32 bits rather than 64. -/
def isShort : Field → Bool
  | missionWeight | externalWeight | fibonacciTerms => true
  | _ => false

/-- The largest number the value can be. -/
def largest (field : Field) : Nat := if field.isShort then 4294967295 else 18446744073709551615

end Field

/-- A value of a configuration. -/
inductive Value where
  | span (time : Duration)
  | number (n : Nat)
deriving DecidableEq

/-- The number that a document holds for a value: of a span the whole milliseconds, in 64 bits. -/
def Value.written : Value → Nat
  | span time => time.millis64.toNat
  | number n => n

/-- The value behind a name. -/
def value (config : MissionConfig) : Field → Value
  | .tickPeriod => .span config.tickPeriod
  | .antennaThreshold => .span config.antennaThreshold
  | .antennaStepTimeout => .span config.antennaStepTimeout
  | .antennaAutoTimeout => .span config.antennaAutoTimeout
  | .sailThreshold => .span config.sailThreshold
  | .clockNotificationPeriod => .span config.clockNotificationPeriod
  | .clockSavePeriod => .span config.clockSavePeriod
  | .correctionPeriod => .span config.correctionPeriod
  | .missionWeight => .number config.missionWeight.toNat
  | .externalWeight => .number config.externalWeight.toNat
  | .telemetryPeriod => .span config.telemetryPeriod
  | .telemetryMaxFileSize => .number config.telemetryMaxFileSize.toNat
  | .fibonacciTerms => .number config.fibonacciTerms.toNat

/-- The number behind a name. -/
def get (config : MissionConfig) (field : Field) : Nat := (config.value field).written

/-- Put the value that a number stands for behind a name. -/
def set (field : Field) (n : Nat) (config : MissionConfig) : MissionConfig :=
  match field with
  | .tickPeriod => { config with tickPeriod := .ofMillis (.ofNat n) }
  | .antennaThreshold => { config with antennaThreshold := .ofMillis (.ofNat n) }
  | .antennaStepTimeout => { config with antennaStepTimeout := .ofMillis (.ofNat n) }
  | .antennaAutoTimeout => { config with antennaAutoTimeout := .ofMillis (.ofNat n) }
  | .sailThreshold => { config with sailThreshold := .ofMillis (.ofNat n) }
  | .clockNotificationPeriod => { config with clockNotificationPeriod := .ofMillis (.ofNat n) }
  | .clockSavePeriod => { config with clockSavePeriod := .ofMillis (.ofNat n) }
  | .correctionPeriod => { config with correctionPeriod := .ofMillis (.ofNat n) }
  | .missionWeight => { config with missionWeight := .ofNat n }
  | .externalWeight => { config with externalWeight := .ofNat n }
  | .telemetryPeriod => { config with telemetryPeriod := .ofMillis (.ofNat n) }
  | .telemetryMaxFileSize => { config with telemetryMaxFileSize := .ofNat n }
  | .fibonacciTerms => { config with fibonacciTerms := .ofNat n }

/-- Every span is a number of whole milliseconds that fits 64 bits. -/
def InWholeMillis (config : MissionConfig) : Prop :=
  ∀ (field : Field) (time : Duration), config.value field = .span time →
    time.wholeMillis = time ∧ time.millis < UInt64.size

/-- Configurations are the same where all their values are. -/
theorem ext_value {config other : MissionConfig} (h : ∀ field, config.value field = other.value field) :
    config = other := by
  have hspan (field : Field) {a b : Duration} (ha : config.value field = .span a) (hb : other.value field = .span b) :
      a = b :=
    Value.span.inj (ha.symm.trans ((h field).trans hb))
  have hnumber (field : Field) {a b : Nat} (ha : config.value field = .number a) (hb : other.value field = .number b) :
      a = b :=
    Value.number.inj (ha.symm.trans ((h field).trans hb))
  cases config
  cases other
  simp only [mk.injEq]
  exact ⟨hspan .tickPeriod rfl rfl, hspan .antennaThreshold rfl rfl, hspan .antennaStepTimeout rfl rfl,
    hspan .antennaAutoTimeout rfl rfl, hspan .sailThreshold rfl rfl, hspan .clockNotificationPeriod rfl rfl,
    hspan .clockSavePeriod rfl rfl, hspan .correctionPeriod rfl rfl,
    UInt32.toNat_inj.1 (hnumber .missionWeight rfl rfl), UInt32.toNat_inj.1 (hnumber .externalWeight rfl rfl),
    hspan .telemetryPeriod rfl rfl, UInt64.toNat_inj.1 (hnumber .telemetryMaxFileSize rfl rfl),
    UInt32.toNat_inj.1 (hnumber .fibonacciTerms rfl rfl)⟩

theorem get_le_largest (config : MissionConfig) (field : Field) : config.get field ≤ field.largest := by
  cases field with
  | missionWeight | externalWeight | fibonacciTerms => exact Nat.le_of_lt_succ (UInt32.toNat_lt _)
  | tickPeriod | antennaThreshold | antennaStepTimeout | antennaAutoTimeout | sailThreshold | clockNotificationPeriod
  | clockSavePeriod | correctionPeriod | telemetryPeriod | telemetryMaxFileSize =>
    exact Nat.le_of_lt_succ (UInt64.toNat_lt _)

/-- A value that a document can hold is what its number stands for. -/
theorem value_set_get {other : MissionConfig} (h : other.InWholeMillis) (config : MissionConfig) (field : Field) :
    (config.set field (other.get field)).value field = other.value field := by
  have hspan {time : Duration} (hvalue : other.value field = .span time) :
      Value.span (.ofMillis (.ofNat time.millis64.toNat)) = .span time := by
    obtain ⟨hwhole, hlt⟩ := h field time hvalue
    rw [UInt64.ofNat_toNat, Duration.ofMillis_millis64 hlt, hwhole]
  cases field with
  | missionWeight | externalWeight | fibonacciTerms =>
    exact congrArg Value.number (congrArg UInt32.toNat UInt32.ofNat_toNat)
  | telemetryMaxFileSize => exact congrArg Value.number (congrArg UInt64.toNat UInt64.ofNat_toNat)
  | tickPeriod | antennaThreshold | antennaStepTimeout | antennaAutoTimeout | sailThreshold | clockNotificationPeriod
  | clockSavePeriod | correctionPeriod | telemetryPeriod => exact hspan rfl

theorem value_set_of_ne (config : MissionConfig) {field other : Field} (n : Nat) (h : other ≠ field) :
    (config.set field n).value other = config.value other := by
  cases field <;> cases other <;> first | rfl | exact absurd rfl h

/-- A span that a number stands for can be written again. -/
theorem InWholeMillis.set {config : MissionConfig} (h : config.InWholeMillis) (field : Field) (n : Nat) :
    (config.set field n).InWholeMillis := by
  intro other time hvalue
  by_cases hother : other = field
  · subst hother
    have hread : (∃ m, (config.set other n).value other = .number m) ∨
        (config.set other n).value other = .span (.ofMillis (.ofNat n)) := by
      cases other <;> first | exact .inr rfl | exact .inl ⟨_, rfl⟩
    rcases hread with ⟨_, hnumber⟩ | hspan
    · rw [hnumber] at hvalue
      cases hvalue
    · rw [hspan] at hvalue
      obtain rfl := Value.span.inj hvalue
      exact ⟨Duration.wholeMillis_ofMillis _, (Duration.millis_ofMillis _).symm ▸ UInt64.toNat_lt _⟩
  · rw [value_set_of_ne config n hother] at hvalue
    exact h other time hvalue

theorem inWholeMillis_standard : standard.InWholeMillis := by
  intro field time hvalue
  cases field <;> cases hvalue <;> decide

theorem InWholeMillis.leavesRoom {config : MissionConfig} (h : config.InWholeMillis) {field : Field} {time : Duration}
    (hvalue : config.value field = .span time) : time.LeavesRoom := by
  obtain ⟨hwhole, hlt⟩ := h field time hvalue
  rw [← hwhole, ← Duration.ofMillis_millis64 hlt]
  exact Duration.leavesRoom_ofMillis _

end MissionConfig

end Spacecraft
