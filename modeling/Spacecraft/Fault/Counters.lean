import Spacecraft.Fault.Device
import Spacecraft.Fault.Policy

/-!
# Error counters

One counter per device.  Drivers hand in reports, one per transaction; a failure that lifts a counter to its limit
raises an alarm, and no further alarm follows for that device until a success brings the counter below its limit
again.
-/

namespace Spacecraft

/-- The error counter of one device. -/
structure Counter where
  current : UInt8
  policy : Policy
  /-- The limit was reached and no success has brought the counter below it since. -/
  latched : Bool
deriving DecidableEq

namespace Counter

/-- A counter at zero under a policy. -/
def fresh (policy : Policy) : Counter := ⟨0, policy, false⟩

instance : Inhabited Counter := ⟨fresh .standard⟩

/-- The sum of two bytes, stopping at the largest byte. -/
def saturatingAdd (a b : UInt8) : UInt8 := UInt8.ofNat (min (a.toNat + b.toNat) 255)

/-- The difference of two bytes, stopping at zero. -/
def saturatingSub (a b : UInt8) : UInt8 := UInt8.ofNat (a.toNat - b.toNat)

/-- The counter after a failure. -/
def failure (c : Counter) : Counter :=
  let raised := saturatingAdd c.current c.policy.increment
  if c.policy.limit ≤ raised then { c with current := c.policy.limit, latched := true }
  else { c with current := raised }

/-- A failure lifts the counter to its limit for the first time since it was last below. -/
def alarmsAtFailure (c : Counter) : Bool :=
  decide (c.policy.limit ≤ saturatingAdd c.current c.policy.increment) && !c.latched

/-- The counter after a success. -/
def success (c : Counter) : Counter :=
  let lowered := saturatingSub c.current c.policy.decrement
  if lowered < c.policy.limit then { c with current := lowered, latched := false }
  else { c with current := lowered }

/-- The counter after a transaction that went well or badly. -/
def report (healthy : Bool) (c : Counter) : Counter := if healthy then c.success else c.failure

@[simp]
theorem toNat_saturatingAdd (a b : UInt8) : (saturatingAdd a b).toNat = min (a.toNat + b.toNat) 255 := by
  have := Nat.min_le_right (a.toNat + b.toNat) 255
  rw [saturatingAdd, UInt8.toNat_ofNat']
  omega

@[simp]
theorem toNat_saturatingSub (a b : UInt8) : (saturatingSub a b).toNat = a.toNat - b.toNat := by
  have := a.toNat_lt
  rw [saturatingSub, UInt8.toNat_ofNat']
  omega

/-- The limit is a byte, so that the sum stops short of it exactly where the unbounded sum does. -/
private theorem limit_le_raised_iff (c : Counter) :
    c.policy.limit ≤ saturatingAdd c.current c.policy.increment ↔
      c.policy.limit.toNat ≤ c.current.toNat + c.policy.increment.toNat := by
  have := c.policy.limit.toNat_lt
  rw [UInt8.le_iff_toNat_le, toNat_saturatingAdd]
  omega

@[simp]
theorem policy_failure (c : Counter) : c.failure.policy = c.policy := by
  rw [failure]
  split <;> rfl

@[simp]
theorem policy_success (c : Counter) : c.success.policy = c.policy := by
  rw [success]
  split <;> rfl

@[simp]
theorem policy_report (healthy : Bool) (c : Counter) : (c.report healthy).policy = c.policy := by
  cases healthy with
  | false => exact policy_failure c
  | true => exact policy_success c

theorem toNat_current_failure (c : Counter) :
    c.failure.current.toNat = min c.policy.limit.toNat (c.current.toNat + c.policy.increment.toNat) := by
  have hc := limit_le_raised_iff c
  rw [failure]
  split
  · rename_i h
    exact (Nat.min_eq_left (hc.1 h)).symm
  · rename_i h
    have := c.policy.limit.toNat_lt
    rw [hc] at h
    rw [toNat_saturatingAdd]
    omega

theorem toNat_current_success (c : Counter) :
    c.success.current.toNat = c.current.toNat - c.policy.decrement.toNat := by
  rw [success]
  split <;> exact toNat_saturatingSub _ _

theorem latched_failure (c : Counter) :
    c.failure.latched = (c.latched || decide (c.policy.limit ≤ c.failure.current)) := by
  rw [failure]
  split
  · simp
  · rename_i h
    simp [h]

theorem latched_success (c : Counter) :
    c.success.latched = (c.latched && decide (c.policy.limit ≤ c.success.current)) := by
  rw [success]
  split
  · rename_i h
    simp [UInt8.not_le.2 h]
  · rename_i h
    simp [UInt8.not_lt.1 h]

/-- An alarm is raised exactly where a failure leaves the counter at its limit without the mark of an earlier one. -/
theorem alarmsAtFailure_eq (c : Counter) :
    c.alarmsAtFailure = (decide (c.policy.limit ≤ c.failure.current) && !c.latched) := by
  rw [alarmsAtFailure, failure]
  split
  · rename_i h
    simp [h]
  · rfl

theorem current_failure_le (c : Counter) : c.failure.current ≤ c.policy.limit := by
  rw [UInt8.le_iff_toNat_le, toNat_current_failure]
  exact Nat.min_le_left _ _

end Counter

/-- The outcome of one transaction with a device. -/
structure Report where
  device : Device
  healthy : Bool
deriving DecidableEq, Repr

/-- A counter that has just reached its limit. -/
structure Alarm where
  device : Device
  value : UInt8
deriving DecidableEq, Repr

/-- The error counters of all devices. -/
abbrev Counters := DeviceTable Counter

namespace Counters

/-- All counters at zero under the standard policy. -/
def fresh : Counters := DeviceTable.ofFn (fun _ => .fresh .standard)

/-- The value of one counter. -/
def current (counters : Counters) (device : Device) : UInt8 := (counters.get device).current

/-- The values of all counters. -/
def values (counters : Counters) : DeviceTable UInt8 := DeviceTable.ofFn counters.current

/-- The policy of one device. -/
def policy (counters : Counters) (device : Device) : Policy := (counters.get device).policy

/-- The policies of all devices. -/
def policies (counters : Counters) : DeviceTable Policy := DeviceTable.ofFn counters.policy

/-- Change the policy of one device; the counter stays where it is. -/
def setPolicy (device : Device) (policy : Policy) (counters : Counters) : Counters :=
  counters.set device { counters.get device with policy }

/-- Change the policies of all devices. -/
def setPolicies (policies : DeviceTable Policy) (counters : Counters) : Counters :=
  Device.all.foldl (fun counters device => setPolicy device (policies.get device) counters) counters

/-- Count a failure of a device. -/
def failure (device : Device) (counters : Counters) : Option Alarm × Counters :=
  let before := counters.get device
  let after := before.failure
  (if before.alarmsAtFailure then some ⟨device, after.current⟩ else none, counters.set device after)

/-- Count a success of a device. -/
def success (device : Device) (counters : Counters) : Counters :=
  counters.set device (counters.get device).success

/-- Take in the report of one transaction. -/
def report (r : Report) (counters : Counters) : Option Alarm × Counters :=
  if r.healthy then (none, counters.success r.device) else counters.failure r.device

/-- Take in reports in order; the alarms come in order. -/
def reportAll : List Report → Counters → List Alarm × Counters
  | [], counters => ([], counters)
  | r :: rest, counters =>
    let (alarm, counters) := counters.report r
    let (alarms, counters) := counters.reportAll rest
    (alarm.toList ++ alarms, counters)

/-- The report of a transaction that went through the given steps, each good or bad: one bad step spoils it. -/
def summarize (device : Device) (steps : List Bool) : Report := ⟨device, steps.all id⟩

theorem get_setPolicy (device other : Device) (policy : Policy) (counters : Counters) :
    (counters.setPolicy device policy).get other =
      if other = device then { counters.get device with policy } else counters.get other :=
  DeviceTable.get_set counters device other _

theorem get_report (r : Report) (counters : Counters) (other : Device) :
    (counters.report r).2.get other =
      if other = r.device then (counters.get r.device).report r.healthy else counters.get other := by
  obtain ⟨device, healthy⟩ := r
  cases healthy with
  | false => exact DeviceTable.get_set counters device other _
  | true => exact DeviceTable.get_set counters device other _

/-- The alarm of a report: that of its device's counter, if the transaction went badly. -/
theorem alarm_report (r : Report) (counters : Counters) :
    (counters.report r).1 =
      if !r.healthy && (counters.get r.device).alarmsAtFailure then
        some ⟨r.device, (counters.get r.device).failure.current⟩
      else none := by
  obtain ⟨device, healthy⟩ := r
  cases healthy with
  | false => rfl
  | true => rfl

private theorem get_foldl_setPolicy (policies : DeviceTable Policy) (devices : List Device) (other : Device)
    (counters : Counters) :
    (devices.foldl (fun counters device => setPolicy device (policies.get device) counters) counters).get other =
      if other ∈ devices then { counters.get other with policy := policies.get other } else counters.get other := by
  induction devices generalizing counters with
  | nil => simp
  | cons device devices ih =>
    rw [List.foldl_cons, ih, get_setPolicy]
    by_cases hd : other = device
    · subst hd
      simp
    · simp [hd]

@[simp]
theorem get_setPolicies (policies : DeviceTable Policy) (counters : Counters) (device : Device) :
    (counters.setPolicies policies).get device = { counters.get device with policy := policies.get device } := by
  rw [setPolicies, get_foldl_setPolicy]
  exact if_pos (Device.mem_all device)

@[simp]
theorem get_fresh (device : Device) : fresh.get device = .fresh .standard :=
  DeviceTable.get_ofFn _ device

/-! ### Policies in force -/

theorem get_policies (counters : Counters) (device : Device) : counters.policies.get device = counters.policy device :=
  DeviceTable.get_ofFn _ device

/-- Counting leaves the policies as they are. -/
@[simp]
theorem policies_reportAll (reports : List Report) (counters : Counters) :
    (counters.reportAll reports).2.policies = counters.policies := by
  induction reports generalizing counters with
  | nil => rfl
  | cons r rest ih =>
    have hfirst : (counters.report r).2.policies = counters.policies := by
      apply DeviceTable.ext
      intro device
      rw [get_policies, get_policies, policy, policy, get_report]
      split
      · rename_i h
        rw [Counter.policy_report, h]
      · rfl
    exact (ih _).trans hfirst

theorem policies_setPolicy (device : Device) (policy : Policy) (counters : Counters) :
    (counters.setPolicy device policy).policies = counters.policies.set device policy := by
  apply DeviceTable.ext
  intro other
  rw [get_policies, Counters.policy, get_setPolicy, DeviceTable.get_set, get_policies]
  split <;> rfl

theorem policies_setPolicies (policies : DeviceTable Policy) (counters : Counters) :
    (counters.setPolicies policies).policies = policies := by
  apply DeviceTable.ext
  intro device
  rw [get_policies, policy, get_setPolicies]

end Counters

end Spacecraft
