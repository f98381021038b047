import Spacecraft.Fault.Isolation

/-!
# Escalation under a mask

What a flight does to the fault isolation: reports of all devices and changes of the mask come in any order while the
policies stay as they were loaded.  Only its own reports move the counter of a device (`get_after`), and they move it
as unbounded numbers would move (`Counter.toNat_current_foldl_report`).  The mark of a counter below its limit is
always clear (`Counter.MarkedAtLimit`), so that no rise to the limit is overlooked, and it stays set as long as the
counter stays at its limit, so that no rise counts twice (`cyclesOf_le_one`).
-/

namespace Spacecraft

namespace Policy

/-- A counter value after one more transaction, in numbers without an upper end. -/
def count (policy : Policy) (value : Nat) (healthy : Bool) : Nat :=
  if healthy then value - policy.decrement.toNat else min policy.limit.toNat (value + policy.increment.toNat)

/-- The value to which transactions take a counter that starts at zero. -/
def tally (policy : Policy) (transactions : List Bool) : Nat := transactions.foldl policy.count 0

private theorem foldl_count_le (policy : Policy) (transactions : List Bool) (value : Nat)
    (h : value ≤ policy.limit.toNat) :
    transactions.foldl policy.count value ≤ policy.limit.toNat := by
  induction transactions generalizing value with
  | nil => exact h
  | cons healthy rest ih =>
    apply ih
    cases healthy with
    | false => exact Nat.min_le_left _ _
    | true => exact Nat.le_trans (Nat.sub_le _ _) h

private theorem tally_le (policy : Policy) (transactions : List Bool) :
    policy.tally transactions ≤ policy.limit.toNat :=
  foldl_count_le policy transactions 0 (Nat.zero_le _)

end Policy

namespace Counter

/-- A counter that bears the mark of an alarm is not below its limit. -/
def MarkedAtLimit (c : Counter) : Prop := c.latched = true → c.policy.limit ≤ c.current

private theorem markedAtLimit_fresh (policy : Policy) : (fresh policy).MarkedAtLimit := by
  intro h
  cases h

/-- A failure sets the mark only at the limit and never lowers a counter that is there; a success below the limit
clears it. -/
private theorem markedAtLimit_report {c : Counter} (h : c.MarkedAtLimit) (healthy : Bool) :
    (c.report healthy).MarkedAtLimit := by
  intro hm
  rw [policy_report]
  cases healthy with
  | false =>
    change c.failure.latched = true at hm
    rw [latched_failure, Bool.or_eq_true, decide_eq_true_eq] at hm
    rcases hm with hm | hm
    · -- A counter that was at its limit before is not taken down by a failure.
      have hc := UInt8.le_iff_toNat_le.1 (h hm)
      show c.policy.limit ≤ c.failure.current
      rw [UInt8.le_iff_toNat_le, toNat_current_failure]
      omega
    · exact hm
  | true =>
    change c.success.latched = true at hm
    rw [latched_success, Bool.and_eq_true, decide_eq_true_eq] at hm
    exact hm.2

theorem toNat_current_report (c : Counter) (healthy : Bool) :
    (c.report healthy).current.toNat = c.policy.count c.current.toNat healthy := by
  cases healthy with
  | false => exact toNat_current_failure c
  | true => exact toNat_current_success c

/-- The bytes of a counter never show where they end. -/
theorem toNat_current_foldl_report (c : Counter) (transactions : List Bool) :
    (transactions.foldl (fun c healthy => c.report healthy) c).current.toNat =
      transactions.foldl c.policy.count c.current.toNat := by
  induction transactions generalizing c with
  | nil => rfl
  | cons healthy rest ih => rw [List.foldl_cons, List.foldl_cons, ih, policy_report, toNat_current_report]

private theorem policy_foldl_report (c : Counter) (transactions : List Bool) :
    (transactions.foldl (fun c healthy => c.report healthy) c).policy = c.policy := by
  induction transactions generalizing c with
  | nil => rfl
  | cons healthy rest ih => rw [List.foldl_cons, ih, policy_report]

private theorem markedAtLimit_foldl_report {c : Counter} (h : c.MarkedAtLimit) (transactions : List Bool) :
    (transactions.foldl (fun c healthy => c.report healthy) c).MarkedAtLimit := by
  induction transactions generalizing c with
  | nil => exact h
  | cons healthy rest ih => exact ih (markedAtLimit_report h healthy)

/-- A counter that bears the mark keeps it through every report that leaves it at its limit. -/
private theorem latched_report {c : Counter} {healthy : Bool} (hl : c.latched = true)
    (hr : c.policy.limit ≤ (c.report healthy).current) : (c.report healthy).latched = true := by
  cases healthy with
  | false =>
    show c.failure.latched = true
    rw [latched_failure, hl, Bool.true_or]
  | true =>
    show c.success.latched = true
    rw [latched_success, hl, Bool.true_and]
    exact decide_eq_true hr

end Counter

namespace FaultIsolation

/-! ### Flights -/

/-- What reaches the fault isolation in flight. -/
inductive Call where
  | report (report : Report)
  | mask (masked : UInt16)

/-- Take a call; the number is that of the power cycles it asks for. -/
def call : Call → FaultIsolation → Nat × FaultIsolation
  | .report r, fdir => fdir.reportAll [r]
  | .mask masked, fdir => (0, fdir.mask masked)

/-- The fault isolation after calls in order. -/
def after (calls : List Call) (fdir : FaultIsolation) : FaultIsolation :=
  calls.foldl (fun fdir c => (fdir.call c).2) fdir

/-- How a transaction with a device went, if the call reports one. -/
def Call.outcome? (device : Device) : Call → Option Bool
  | .report r => if r.device = device then some r.healthy else none
  | .mask _ => none

/-- The number of power cycles for which a device asks in a call. -/
def asks (device : Device) (c : Call) (fdir : FaultIsolation) : Nat :=
  if (c.outcome? device).isSome then (fdir.call c).1 else 0

/-- The number of power cycles for which a device asks during calls. -/
def cyclesOf (device : Device) : List Call → FaultIsolation → Nat
  | [], _ => 0
  | c :: rest, fdir => fdir.asks device c + cyclesOf device rest (fdir.call c).2

/-- The counter of a device is not below a limit after any of the calls. -/
def StaysAt (limit : UInt8) (device : Device) : List Call → FaultIsolation → Prop
  | [], _ => True
  | c :: rest, fdir =>
    limit ≤ (fdir.call c).2.counters.current device ∧ StaysAt limit device rest (fdir.call c).2

/-! ### The counter of one device -/

/-- A call moves the counter of a device only as a report of that device. -/
theorem get_call (c : Call) (fdir : FaultIsolation) (device : Device) :
    (fdir.call c).2.counters.get device =
      (c.outcome? device).toList.foldl (fun c healthy => c.report healthy) (fdir.counters.get device) := by
  cases c with
  | mask masked => rfl
  | report r =>
    rw [call, get_reportAll_one, Call.outcome?]
    by_cases h : r.device = device
    · subst h
      simp
    · rw [if_neg (Ne.symm h), if_neg h]
      rfl

/-- The counter of a device after calls is the fold of the device's own reports: no other device and no mask takes
part. -/
theorem get_after (calls : List Call) (fdir : FaultIsolation) (device : Device) :
    (fdir.after calls).counters.get device =
      (calls.filterMap (Call.outcome? device)).foldl (fun c healthy => c.report healthy)
        (fdir.counters.get device) := by
  induction calls generalizing fdir with
  | nil => rfl
  | cons c rest ih =>
    have hc := get_call c fdir device
    show ((fdir.call c).2.after rest).counters.get device = _
    rw [ih, hc]
    cases ho : c.outcome? device with
    | none => rw [List.filterMap_cons_none ho]; rfl
    | some healthy => rw [List.filterMap_cons_some ho]; rfl

theorem policy_call (c : Call) (fdir : FaultIsolation) (device : Device) :
    ((fdir.call c).2.counters.get device).policy = (fdir.counters.get device).policy := by
  rw [get_call, Counter.policy_foldl_report]

@[simp]
theorem get_loadPolicies_fresh (policies : DeviceTable Policy) (device : Device) :
    (fresh.loadPolicies policies).counters.get device = .fresh (policies.get device) := by
  rw [loadPolicies, Counters.get_setPolicies]
  show { Counters.fresh.get device with policy := policies.get device } = Counter.fresh (policies.get device)
  rw [Counters.get_fresh]
  rfl

/-- After any flight the mark of a device's counter is clear while the counter is below its limit. -/
theorem markedAtLimit_after (policies : DeviceTable Policy) (calls : List Call) (device : Device) :
    (((fresh.loadPolicies policies).after calls).counters.get device).MarkedAtLimit := by
  rw [get_after, get_loadPolicies_fresh]
  exact Counter.markedAtLimit_foldl_report (Counter.markedAtLimit_fresh _) _

theorem policy_after (policies : DeviceTable Policy) (calls : List Call) (device : Device) :
    (((fresh.loadPolicies policies).after calls).counters.get device).policy = policies.get device := by
  rw [get_after, Counter.policy_foldl_report, get_loadPolicies_fresh]
  rfl

/-- The counter of a device counts its own transactions as numbers without an upper end do. -/
private theorem toNat_current_after (policies : DeviceTable Policy) (calls : List Call) (device : Device) :
    (((fresh.loadPolicies policies).after calls).counters.current device).toNat =
      (policies.get device).tally (calls.filterMap (Call.outcome? device)) := by
  rw [Counters.current, get_after, Counter.toNat_current_foldl_report, get_loadPolicies_fresh]
  rfl

/-! ### Power cycles -/

/-- A call asks for a power cycle only as the failure of a device that the mask lets through and that raises an
alarm. -/
private theorem cycles_call_eq_one {c : Call} {fdir : FaultIsolation} (h : (fdir.call c).1 ≠ 0) :
    ∃ device, c = .report ⟨device, false⟩ ∧ (fdir.counters.get device).alarmsAtFailure = true ∧
      holdsBack fdir.masked device = false ∧ (fdir.call c).1 = 1 := by
  cases c with
  | mask masked => exact absurd rfl h
  | report r =>
    obtain ⟨device, healthy⟩ := r
    have hone := cycles_reportAll_one ⟨device, healthy⟩ fdir
    rw [call] at h ⊢
    split at hone
    · rename_i hc
      obtain ⟨rfl, ha, hb⟩ := hc
      exact ⟨device, rfl, ha, hb, hone⟩
    · exact absurd hone h

/-- The counter of a device that fails is moved by the failure. -/
theorem get_call_failure (fdir : FaultIsolation) (device : Device) :
    (fdir.call (.report ⟨device, false⟩)).2.counters.get device = (fdir.counters.get device).failure := by
  rw [get_call, Call.outcome?, if_pos rfl]
  rfl

/-- The failure that takes an unmasked counter from below its limit to the limit asks for one power cycle. -/
theorem cycles_call_failure {fdir : FaultIsolation} {device : Device}
    (hm : (fdir.counters.get device).MarkedAtLimit) (hb : holdsBack fdir.masked device = false)
    (hlt : (fdir.counters.get device).current < (fdir.counters.get device).policy.limit)
    (hle : (fdir.counters.get device).policy.limit ≤ (fdir.counters.get device).failure.current) :
    (fdir.call (.report ⟨device, false⟩)).1 = 1 := by
  have hl : (fdir.counters.get device).latched = false := by
    cases h : (fdir.counters.get device).latched with
    | false => rfl
    | true => exact absurd hlt (UInt8.not_lt.2 (hm h))
  have ha : (fdir.counters.get device).alarmsAtFailure = true := by
    rw [Counter.alarmsAtFailure_eq, hl]
    simpa using hle
  rw [call, cycles_reportAll_one]
  exact if_pos ⟨rfl, ha, hb⟩

/-- A device that asks for a power cycle raises an alarm. -/
private theorem alarms_of_asks {device : Device} {c : Call} {fdir : FaultIsolation} (h : fdir.asks device c ≠ 0) :
    c = .report ⟨device, false⟩ ∧ (fdir.counters.get device).alarmsAtFailure = true ∧ fdir.asks device c = 1 := by
  unfold asks at h ⊢
  split at h
  · rename_i ho
    obtain ⟨other, rfl, ha, -, hone⟩ := cycles_call_eq_one h
    by_cases hd : other = device
    · subst hd
      exact ⟨rfl, ha, by rw [if_pos ho, hone]⟩
    · rw [Call.outcome?, if_neg hd] at ho
      cases ho
  · exact absurd rfl h

/-- A call that leaves a counter at its limit leaves it the mark. -/
theorem latched_call {device : Device} {c : Call} {fdir : FaultIsolation}
    (hl : (fdir.counters.get device).latched = true)
    (hat : (fdir.counters.get device).policy.limit ≤ (fdir.call c).2.counters.current device) :
    ((fdir.call c).2.counters.get device).latched = true := by
  rw [Counters.current, get_call] at hat
  rw [get_call]
  cases ho : c.outcome? device with
  | none => exact hl
  | some healthy =>
    rw [ho] at hat
    exact Counter.latched_report hl hat

/-- A counter that bears the mark asks for nothing while it stays at its limit: every call leaves it the mark. -/
theorem cyclesOf_eq_zero {device : Device} {calls : List Call} {fdir : FaultIsolation}
    (hl : (fdir.counters.get device).latched = true)
    (hs : StaysAt (fdir.counters.get device).policy.limit device calls fdir) : cyclesOf device calls fdir = 0 := by
  induction calls generalizing fdir with
  | nil => rfl
  | cons c rest ih =>
    have hasks : fdir.asks device c = 0 := by
      apply Decidable.byContradiction
      intro h
      have ha := (alarms_of_asks h).2.1
      rw [Counter.alarmsAtFailure_eq, hl, Bool.not_true, Bool.and_false] at ha
      cases ha
    rw [cyclesOf, hasks, ih (latched_call hl hs.1) (by rw [policy_call]; exact hs.2)]

/-- While the counter of a device is not below its limit, the device asks for at most one power cycle. -/
theorem cyclesOf_le_one {device : Device} {calls : List Call} {fdir : FaultIsolation}
    (hs : StaysAt (fdir.counters.get device).policy.limit device calls fdir) : cyclesOf device calls fdir ≤ 1 := by
  induction calls generalizing fdir with
  | nil => exact Nat.zero_le 1
  | cons c rest ih =>
    have htail : StaysAt ((fdir.call c).2.counters.get device).policy.limit device rest (fdir.call c).2 := by
      rw [policy_call]
      exact hs.2
    rw [cyclesOf]
    by_cases h : fdir.asks device c = 0
    · rw [h, Nat.zero_add]
      exact ih htail
    · -- The first call that asks leaves the mark, and from there on nothing asks.
      obtain ⟨rfl, -, hone⟩ := alarms_of_asks h
      have hlatched : ((fdir.call (.report ⟨device, false⟩)).2.counters.get device).latched = true := by
        have hhead := hs.1
        rw [Counters.current, get_call_failure] at hhead
        rw [get_call_failure, Counter.latched_failure, decide_eq_true hhead, Bool.or_true]
      have hzero := cyclesOf_eq_zero hlatched htail
      omega

/-- A flight under policies that stay as they were loaded.  The counter of a device is the tally of the device's own
transactions and never above its limit.  A failure that takes it from below the limit to the limit, while the mask
lets the device through, asks for exactly one power cycle.  Nothing else asks for one: a power cycle comes from the
failure of a device that the mask lets through and whose counter is at its limit.  And while its counter is not below
the limit, a device asks for at most one. -/
theorem one_cycle_per_rise (policies : DeviceTable Policy) (calls : List Call) (device : Device) :
    let flown := (fresh.loadPolicies policies).after calls
    let limit := (policies.get device).limit
    ((flown.counters.current device).toNat =
        (policies.get device).tally (calls.filterMap (Call.outcome? device)) ∧
      flown.counters.current device ≤ limit) ∧
    (flown.counters.current device < limit →
      (flown.call (.report ⟨device, false⟩)).2.counters.current device = limit →
      holdsBack flown.masked device = false → (flown.call (.report ⟨device, false⟩)).1 = 1) ∧
    (∀ c, (flown.call c).1 ≠ 0 → ∃ other, c = .report ⟨other, false⟩ ∧ holdsBack flown.masked other = false ∧
      (flown.call c).2.counters.current other = (policies.get other).limit ∧ (flown.call c).1 = 1) ∧
    (∀ stretch, StaysAt limit device stretch flown → cyclesOf device stretch flown ≤ 1) := by
  intro flown limit
  have hpolicy : ∀ d, (flown.counters.get d).policy = policies.get d := policy_after policies calls
  have hcount := toNat_current_after policies calls device
  refine ⟨⟨hcount, ?_⟩, ?_, ?_, ?_⟩
  · rw [UInt8.le_iff_toNat_le, hcount]
    exact Policy.tally_le _ _
  · intro hlt hat hb
    apply cycles_call_failure (markedAtLimit_after policies calls device) hb
    · rw [hpolicy]
      exact hlt
    · rw [Counters.current, get_call_failure] at hat
      rw [hpolicy, hat]
      exact UInt8.le_refl _
  · intro c hc
    obtain ⟨other, rfl, ha, hb, hone⟩ := cycles_call_eq_one hc
    refine ⟨other, rfl, hb, ?_, hone⟩
    rw [Counter.alarmsAtFailure_eq, Bool.and_eq_true, decide_eq_true_eq] at ha
    rw [Counters.current, get_call_failure, ← hpolicy]
    exact UInt8.le_antisymm (Counter.current_failure_le _) ha.1
  · intro stretch hs
    apply cyclesOf_le_one
    rw [hpolicy]
    exact hs

theorem one_cycle_per_rise_imtq :
    let calls : List Call :=
      [.report ⟨.imtq, false⟩, .mask 1, .report ⟨.comm, false⟩, .report ⟨.imtq, true⟩, .report ⟨.imtq, false⟩]
    let stretch : List Call := [.report ⟨.imtq, false⟩, .mask 16, .mask 0, .report ⟨.imtq, false⟩]
    let flown := (fresh.loadPolicies (DeviceTable.ofFn fun _ => ⟨10, 5, 2⟩)).after calls
    flown.counters.current .imtq = 8 ∧ (flown.call (.report ⟨.imtq, false⟩)).1 = 1 ∧
      cyclesOf .imtq stretch flown ≤ 1 := by
  intro calls stretch flown
  have h := one_cycle_per_rise (DeviceTable.ofFn fun _ => ⟨10, 5, 2⟩) calls .imtq
  refine ⟨by decide, h.2.1 (by decide) (by decide) (by decide), h.2.2.2 stretch ?_⟩
  exact ⟨by decide, by decide, by decide, by decide, trivial⟩

end FaultIsolation

end Spacecraft
