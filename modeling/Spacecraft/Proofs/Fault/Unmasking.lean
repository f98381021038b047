import Mathlib.Data.List.Induction
import Spacecraft.Proofs.Fault.Escalation

/-!
# What lifting a mask does not bring back

A counter that rises to its limit takes the mark whether or not the mask holds its device back.  So the power cycle of
a rise is asked for at the rise or never: lifting the mask afterwards changes nothing
(`unmasked_at_limit_stays_quiet`), and only a success that brings the counter below its limit makes the device
escalate again (`success_rearms`).
-/

namespace Spacecraft

namespace FaultIsolation

/-- With the failure that follows the calls `earlier` the counter of a device rises to the limit from below, and it is
not below the limit after any of the calls `since`. -/
def RoseAfter (limit : UInt8) (device : Device) (earlier since : List Call) (fdir : FaultIsolation) : Prop :=
  (fdir.after earlier).counters.current device < limit ∧
    StaysAt limit device (.report ⟨device, false⟩ :: since) (fdir.after earlier)

variable {limit : UInt8} {device : Device} {c : Call} {calls : List Call} {fdir : FaultIsolation}

private theorem after_cons (c : Call) (calls : List Call) (fdir : FaultIsolation) :
    fdir.after (c :: calls) = (fdir.call c).2.after calls := rfl

theorem after_append (calls more : List Call) (fdir : FaultIsolation) :
    fdir.after (calls ++ more) = (fdir.after calls).after more :=
  List.foldl_append

theorem after_concat (calls : List Call) (c : Call) (fdir : FaultIsolation) :
    fdir.after (calls ++ [c]) = ((fdir.after calls).call c).2 :=
  after_append calls [c] fdir

private theorem staysAt_concat :
    StaysAt limit device (calls ++ [c]) fdir ↔
      StaysAt limit device calls fdir ∧ limit ≤ (fdir.after (calls ++ [c])).counters.current device := by
  induction calls generalizing fdir with
  | nil => simp [StaysAt, after]
  | cons d rest ih =>
    rw [List.cons_append, StaysAt, StaysAt, ih, after_cons]
    exact and_assoc.symm

private theorem StaysAt.le_after (hs : StaysAt limit device calls fdir) (hat : limit ≤ fdir.counters.current device) :
    limit ≤ (fdir.after calls).counters.current device := by
  induction calls generalizing fdir with
  | nil => exact hat
  | cons c rest ih => exact ih hs.2 hs.1

/-! ### Rises and drops -/

private theorem Call.outcome?_eq_some_iff {healthy : Bool} :
    c.outcome? device = some healthy ↔ c = .report ⟨device, healthy⟩ := by
  cases c with
  | mask masked => simp [outcome?]
  | report r =>
    obtain ⟨other, h⟩ := r
    simp [outcome?]

/-- A call that moves the counter of a device reports how a transaction with it went. -/
private theorem exists_outcome_of_current_ne
    (h : (fdir.call c).2.counters.current device ≠ fdir.counters.current device) :
    ∃ healthy, c = .report ⟨device, healthy⟩ ∧
      (fdir.call c).2.counters.current device = ((fdir.counters.get device).report healthy).current := by
  rw [Counters.current, get_call] at h ⊢
  cases ho : c.outcome? device with
  | none =>
    rw [ho] at h
    exact absurd rfl h
  | some healthy => exact ⟨healthy, Call.outcome?_eq_some_iff.1 ho, rfl⟩

/-- Only a failure takes a counter from below its limit to the limit. -/
private theorem eq_failure_of_rise (hbelow : fdir.counters.current device < limit)
    (hat : limit ≤ (fdir.call c).2.counters.current device) : c = .report ⟨device, false⟩ := by
  have hne : (fdir.call c).2.counters.current device ≠ fdir.counters.current device :=
    fun heq => UInt8.not_le.2 hbelow (heq ▸ hat)
  obtain ⟨healthy, rfl, hcurrent⟩ := exists_outcome_of_current_ne hne
  cases healthy with
  | false => rfl
  | true =>
    rw [hcurrent, UInt8.le_iff_toNat_le, Counter.toNat_current_report] at hat
    rw [UInt8.lt_iff_toNat_lt, Counters.current] at hbelow
    simp only [Policy.count, if_true] at hat
    omega

/-- Only a success takes a counter below its limit. -/
private theorem eq_success_of_drop (hlimit : (fdir.counters.get device).policy.limit = limit)
    (hat : limit ≤ fdir.counters.current device) (hbelow : (fdir.call c).2.counters.current device < limit) :
    c = .report ⟨device, true⟩ := by
  have hne : (fdir.call c).2.counters.current device ≠ fdir.counters.current device :=
    fun heq => UInt8.not_le.2 hbelow (heq ▸ hat)
  obtain ⟨healthy, rfl, hcurrent⟩ := exists_outcome_of_current_ne hne
  cases healthy with
  | true => rfl
  | false =>
    rw [hcurrent, UInt8.lt_iff_toNat_lt, Counter.toNat_current_report, ← hlimit] at hbelow
    rw [UInt8.le_iff_toNat_le, Counters.current, ← hlimit] at hat
    simp only [Policy.count, Bool.false_eq_true, if_false] at hbelow
    omega

/-- A counter that is at the limit now and was below it at first rose to it at some failure, the last one where it was
below before. -/
private theorem exists_roseAfter (hbelow : fdir.counters.current device < limit)
    (hat : limit ≤ (fdir.after calls).counters.current device) :
    ∃ earlier since, calls = earlier ++ .report ⟨device, false⟩ :: since ∧ fdir.RoseAfter limit device earlier since := by
  induction calls using List.reverseRecOn with
  | nil => exact absurd hbelow (UInt8.not_lt.2 hat)
  | append_singleton calls c ih =>
    by_cases hbefore : limit ≤ (fdir.after calls).counters.current device
    · -- The rise was earlier, and the last call is one more that leaves the counter at the limit.
      obtain ⟨earlier, since, rfl, hbelow, hstays⟩ := ih hbefore
      refine ⟨earlier, since ++ [c], by simp, hbelow, ?_⟩
      rw [← List.cons_append, staysAt_concat, ← after_append]
      exact ⟨hstays, by simpa using hat⟩
    · -- The last call itself is the rise.
      rw [UInt8.not_le] at hbefore
      rw [after_concat] at hat
      obtain rfl := eq_failure_of_rise hbefore hat
      exact ⟨calls, [], rfl, hbefore, hat, trivial⟩

private theorem success_mem_of_drop (hlimit : (fdir.counters.get device).policy.limit = limit)
    (hat : limit ≤ fdir.counters.current device) (hbelow : (fdir.after calls).counters.current device < limit) :
    .report ⟨device, true⟩ ∈ calls := by
  induction calls generalizing fdir with
  | nil => exact absurd hbelow (UInt8.not_lt.2 hat)
  | cons c rest ih =>
    by_cases hnext : limit ≤ (fdir.call c).2.counters.current device
    · exact List.mem_cons_of_mem c (ih (by rw [policy_call, hlimit]) hnext hbelow)
    · rw [eq_success_of_drop hlimit hat (UInt8.not_le.1 hnext)]
      exact List.mem_cons_self

/-! ### Escalation at a rise, and after it -/

/-- The failure that takes a counter from below its limit to the limit asks for a power cycle unless the mask holds the
device back. -/
private theorem cycles_call_rise (hm : (fdir.counters.get device).MarkedAtLimit)
    (hlimit : (fdir.counters.get device).policy.limit = limit) (hbelow : fdir.counters.current device < limit)
    (hat : limit ≤ (fdir.call (.report ⟨device, false⟩)).2.counters.current device) :
    (fdir.call (.report ⟨device, false⟩)).1 = if holdsBack fdir.masked device then 0 else 1 := by
  subst hlimit
  rw [Counters.current, get_call_failure] at hat
  cases hb : holdsBack fdir.masked device with
  | false => exact cycles_call_failure hm hb hbelow hat
  | true =>
    rw [call, cycles_reportAll_one, hb]
    simp

private theorem latched_of_staysAt (hl : (fdir.counters.get device).latched = true)
    (hs : StaysAt (fdir.counters.get device).policy.limit device calls fdir) :
    ((fdir.after calls).counters.get device).latched = true := by
  induction calls generalizing fdir with
  | nil => exact hl
  | cons c rest ih => exact ih (latched_call hl hs.1) (by rw [policy_call]; exact hs.2)

private theorem latched_call_failure (hlimit : (fdir.counters.get device).policy.limit = limit)
    (hat : limit ≤ (fdir.call (.report ⟨device, false⟩)).2.counters.current device) :
    ((fdir.call (.report ⟨device, false⟩)).2.counters.get device).latched = true := by
  subst hlimit
  rw [Counters.current, get_call_failure] at hat
  rw [get_call_failure, Counter.latched_failure, decide_eq_true hat, Bool.or_true]

/-- A rise is settled with the failure that makes it: the device asks for its power cycle there unless the mask holds it
back, and for nothing more while its counter stays at the limit. -/
private theorem cyclesOf_of_roseAfter {earlier since : List Call}
    (hm : ((fdir.after earlier).counters.get device).MarkedAtLimit)
    (hlimit : ((fdir.after earlier).counters.get device).policy.limit = limit)
    (hr : fdir.RoseAfter limit device earlier since) :
    cyclesOf device (.report ⟨device, false⟩ :: since) (fdir.after earlier) =
        (if holdsBack (fdir.after earlier).masked device then 0 else 1) ∧
      ((fdir.after (earlier ++ .report ⟨device, false⟩ :: since)).counters.get device).latched = true := by
  obtain ⟨hbelow, hat, hstays⟩ := hr
  have hlatched := latched_call_failure hlimit hat
  rw [← hlimit, ← policy_call (.report ⟨device, false⟩)] at hstays
  constructor
  · have hasks : (fdir.after earlier).asks device (.report ⟨device, false⟩) =
        ((fdir.after earlier).call (.report ⟨device, false⟩)).1 := by
      rw [asks, Call.outcome?_eq_some_iff.2 rfl]
      rfl
    rw [cyclesOf, hasks, cycles_call_rise hm hlimit hbelow hat, cyclesOf_eq_zero hlatched hstays, Nat.add_zero]
  · rw [after_append, after_cons]
    exact latched_of_staysAt hlatched hstays

/-- A flight under policies that stay as they were loaded, and a device whose counter stands at its limit of one or
more.  The counter rose there at a failure of the device; since then the device has asked for one power cycle, or for
none if the mask held it back at that failure.  However the mask changes, no failure asks for another as long as the
counter stays at the limit.  It takes a success of the device to bring the counter below the limit, and from there the
failure that takes it to the limit asks for one power cycle again, unless the mask holds the device back. -/
theorem success_rearms (policies : DeviceTable Policy) (calls : List Call) (device : Device)
    (hlimit : 1 ≤ (policies.get device).limit)
    (hat : ((fresh.loadPolicies policies).after calls).counters.current device = (policies.get device).limit) :
    let ground := fresh.loadPolicies policies
    let limit := (policies.get device).limit
    let failure := Call.report ⟨device, false⟩
    (∃ earlier since, calls = earlier ++ failure :: since ∧ ground.RoseAfter limit device earlier since) ∧
    (∀ earlier since, calls = earlier ++ failure :: since → ground.RoseAfter limit device earlier since →
      cyclesOf device (failure :: since) (ground.after earlier) =
        if holdsBack (ground.after earlier).masked device then 0 else 1) ∧
    (∀ later, StaysAt limit device later (ground.after calls) →
      cyclesOf device (later ++ [failure]) (ground.after calls) = 0) ∧
    (∀ later, (ground.after (calls ++ later)).counters.current device < limit →
      .report ⟨device, true⟩ ∈ later ∧
      (((ground.after (calls ++ later)).call failure).2.counters.current device = limit →
        ((ground.after (calls ++ later)).call failure).1 =
          if holdsBack (ground.after (calls ++ later)).masked device then 0 else 1)) := by
  intro ground limit failure
  have hpolicy (calls : List Call) : ((ground.after calls).counters.get device).policy.limit = limit :=
    congrArg Policy.limit (policy_after policies calls device)
  have hmarked (calls : List Call) := markedAtLimit_after policies calls device
  have hstart : ground.counters.current device < limit := by
    rw [Counters.current, get_loadPolicies_fresh]
    exact UInt8.lt_of_lt_of_le (by decide : (0 : UInt8) < 1) hlimit
  have hrise := exists_roseAfter hstart (UInt8.le_of_eq hat.symm)
  have hlatched : ((ground.after calls).counters.get device).latched = true := by
    obtain ⟨earlier, since, rfl, hr⟩ := hrise
    exact (cyclesOf_of_roseAfter (hmarked earlier) (hpolicy earlier) hr).2
  refine ⟨hrise, ?_, ?_, ?_⟩
  · rintro earlier since - hr
    exact (cyclesOf_of_roseAfter (hmarked earlier) (hpolicy earlier) hr).1
  · intro later hs
    have hkept : limit ≤ (((ground.after calls).after later).call failure).2.counters.current device := by
      apply Decidable.byContradiction
      intro hdrop
      have hbefore := hs.le_after (UInt8.le_of_eq hat.symm)
      rw [← after_append] at hdrop hbefore
      have hsuccess : Call.report ⟨device, false⟩ = .report ⟨device, true⟩ :=
        eq_success_of_drop (hpolicy (calls ++ later)) hbefore (UInt8.not_le.1 hdrop)
      cases hsuccess
    -- The failure at the end finds the counter at its limit, so it is one of the calls that ask for nothing.
    apply cyclesOf_eq_zero hlatched
    rw [hpolicy, staysAt_concat, after_concat]
    exact ⟨hs, hkept⟩
  · intro later hbelow
    have hmem : .report ⟨device, true⟩ ∈ later := by
      rw [after_append] at hbelow
      exact success_mem_of_drop (hpolicy calls) (UInt8.le_of_eq hat.symm) hbelow
    refine ⟨hmem, fun hrisen => ?_⟩
    exact cycles_call_rise (hmarked _) (hpolicy _) hbelow (UInt8.le_of_eq hrisen.symm)

theorem success_rearms_imtq :
    let calls : List Call := [.mask 16, .report ⟨.imtq, false⟩, .report ⟨.imtq, false⟩, .mask 0]
    let ground := fresh.loadPolicies (DeviceTable.ofFn fun _ => ⟨10, 5, 2⟩)
    (ground.after calls).counters.current .imtq = 10 ∧
      cyclesOf .imtq [.report ⟨.imtq, false⟩, .mask 0] (ground.after (calls.take 2)) = 0 ∧
      cyclesOf .imtq [.report ⟨.imtq, false⟩] (ground.after calls) = 0 ∧
      ((ground.after (calls ++ [.report ⟨.imtq, true⟩])).call (.report ⟨.imtq, false⟩)).1 = 1 := by
  intro calls ground
  have h := success_rearms (DeviceTable.ofFn fun _ => ⟨10, 5, 2⟩) calls .imtq (by decide) (by decide)
  have hrose : ground.RoseAfter 10 .imtq (calls.take 2) [.mask 0] := ⟨by decide, by decide, by decide, trivial⟩
  have hrearmed := (h.2.2.2 [.report ⟨.imtq, true⟩] (by decide)).2 (by decide)
  exact ⟨by decide, (h.2.1 (calls.take 2) [.mask 0] rfl hrose).trans (if_pos (by decide)), h.2.2.1 [] trivial,
    hrearmed.trans (if_neg (by decide))⟩

/-- A device that rose to its limit while it was held back and is let through again asks for nothing at its next
failure. -/
theorem unmasked_at_limit_stays_quiet :
    let policies : DeviceTable Policy := DeviceTable.ofFn fun _ => ⟨10, 5, 2⟩
    let earlier : List Call := [.mask 16, .report ⟨.imtq, false⟩]
    let since : List Call := [.mask 0]
    let ground := fresh.loadPolicies policies
    let flown := ground.after (earlier ++ .report ⟨.imtq, false⟩ :: since)
    (1 ≤ (policies.get .imtq).limit ∧ flown.counters.current .imtq = (policies.get .imtq).limit ∧
      holdsBack flown.masked .imtq = false ∧ ground.RoseAfter (policies.get .imtq).limit .imtq earlier since ∧
      cyclesOf .imtq (.report ⟨.imtq, false⟩ :: since) (ground.after earlier) = 0) ∧
    (flown.call (.report ⟨.imtq, false⟩)).1 = 0 := by
  intro policies earlier since ground flown
  refine ⟨⟨by decide, by decide, by decide, ?_, by decide⟩, by decide⟩
  exact ⟨by decide, by decide, by decide, trivial⟩

end FaultIsolation

end Spacecraft
