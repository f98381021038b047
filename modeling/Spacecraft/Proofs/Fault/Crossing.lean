import Mathlib.Data.List.Induction
import Spacecraft.Fault.Counters

/-!
# Crossings of a limit that changes

Reports and changes of policy come in any order.  A failure that takes a counter from below its limit to the limit
raises an alarm exactly where the alarm is not already spent (`alarm_at_crossing`): where no earlier failure left
the counter at the limit then in force, or a success brought it below the limit since.  A change of policy touches
neither the counter nor its mark, so that after the limit was moved up a crossing can go without an alarm
(`crossing_without_alarm`).
-/

namespace Spacecraft

namespace Counters

/-- What moves the counters: the report of a transaction or a change of policy. -/
inductive Call where
  | report (report : Report)
  | setPolicy (device : Device) (policy : Policy)

/-- Take a call; the alarm is that of a report. -/
def call : Call → Counters → Option Alarm × Counters
  | .report r, counters => counters.report r
  | .setPolicy device policy, counters => (none, counters.setPolicy device policy)

/-- The counters after calls in order. -/
def after (calls : List Call) (counters : Counters) : Counters :=
  calls.foldl (fun counters c => (counters.call c).2) counters

/-- The counter of a device is not below the limit in force. -/
def AtLimit (device : Device) (counters : Counters) : Prop :=
  (counters.policy device).limit ≤ counters.current device

/-- The alarm of a device is spent: in the course of the calls a failure left its counter at the limit in force, and
no success has left it below the limit in force since. -/
def AlarmSpent (device : Device) (calls : List Call) : Prop :=
  ∃ earlier later, calls = earlier ++ .report ⟨device, false⟩ :: later ∧
    (fresh.after (earlier ++ [.report ⟨device, false⟩])).AtLimit device ∧
    ∀ between rest, later = between ++ .report ⟨device, true⟩ :: rest →
      (fresh.after (earlier ++ .report ⟨device, false⟩ :: between ++ [.report ⟨device, true⟩])).AtLimit device

theorem after_concat (calls : List Call) (c : Call) (counters : Counters) :
    counters.after (calls ++ [c]) = ((counters.after calls).call c).2 := by
  unfold after
  rw [List.foldl_append]
  rfl

/-- A call stands in a list of calls as the last one or among those before it. -/
private theorem concat_eq_append_cons {calls earlier later : List Call} {c d : Call}
    (h : calls ++ [c] = earlier ++ d :: later) :
    (earlier = calls ∧ d = c ∧ later = []) ∨ ∃ front, later = front ++ [c] ∧ calls = earlier ++ d :: front := by
  cases later using List.reverseRecOn with
  | nil =>
    obtain ⟨he, hc⟩ := List.append_inj' h rfl
    exact Or.inl ⟨he.symm, (List.cons.inj hc).1.symm, rfl⟩
  | append_singleton front last =>
    rw [← List.cons_append, ← List.append_assoc] at h
    obtain ⟨he, hc⟩ := List.append_inj' h rfl
    exact Or.inr ⟨front, by rw [(List.cons.inj hc).1], he⟩

/-- How one more call changes whether the alarm of a device is spent. -/
private theorem alarmSpent_concat (device : Device) (calls : List Call) (c : Call) :
    AlarmSpent device (calls ++ [c]) ↔
      (AlarmSpent device calls ∧ (c = .report ⟨device, true⟩ → (fresh.after (calls ++ [c])).AtLimit device)) ∨
        (c = .report ⟨device, false⟩ ∧ (fresh.after (calls ++ [c])).AtLimit device) := by
  constructor
  · -- The failure that spends the alarm is the last call, or it stands before it.
    rintro ⟨earlier, later, hsplit, hat, hsince⟩
    rcases concat_eq_append_cons hsplit with ⟨rfl, rfl, rfl⟩ | ⟨front, rfl, rfl⟩
    · exact Or.inr ⟨rfl, hat⟩
    · refine Or.inl ⟨⟨earlier, front, rfl, hat, ?_⟩, ?_⟩
      · rintro between rest rfl
        exact hsince between (rest ++ [c]) (by simp)
      · rintro rfl
        exact hsince front [] rfl
  · rintro (⟨⟨earlier, later, rfl, hat, hsince⟩, hlast⟩ | ⟨rfl, hat⟩)
    · refine ⟨earlier, later ++ [c], by simp, hat, ?_⟩
      intro between rest hsplit
      rcases concat_eq_append_cons hsplit with ⟨rfl, rfl, rfl⟩ | ⟨front, rfl, rfl⟩
      · exact hlast rfl
      · exact hsince between front rfl
    · exact ⟨calls, [], rfl, hat, fun between rest h => by simp at h⟩

/-- How one more call changes the mark of a device. -/
theorem latched_call (counters : Counters) (device : Device) (c : Call) :
    ((counters.call c).2.get device).latched = true ↔
      ((counters.get device).latched = true ∧ (c = .report ⟨device, true⟩ → (counters.call c).2.AtLimit device)) ∨
        (c = .report ⟨device, false⟩ ∧ (counters.call c).2.AtLimit device) := by
  cases c with
  | setPolicy other policy =>
    have hg : ((counters.call (.setPolicy other policy)).2.get device).latched = (counters.get device).latched := by
      rw [call, get_setPolicy]
      split
      · rename_i h
        rw [h]
      · rfl
    simp [hg]
  | report r =>
    obtain ⟨other, healthy⟩ := r
    by_cases ho : other = device
    · subst ho
      have hg : (counters.call (.report ⟨other, healthy⟩)).2.get other = (counters.get other).report healthy := by
        rw [call, get_report, if_pos rfl]
      unfold AtLimit Counters.policy Counters.current
      rw [hg, Counter.policy_report]
      cases healthy with
      | false =>
        show (counters.get other).failure.latched = true ↔ _
        rw [Counter.latched_failure]
        simp [Counter.report]
      | true =>
        show (counters.get other).success.latched = true ↔ _
        rw [Counter.latched_success]
        simp [Counter.report]
    · have hg : (counters.call (.report ⟨other, healthy⟩)).2.get device = counters.get device := by
        rw [call, get_report, if_neg (Ne.symm ho)]
      rw [hg]
      simp [ho]

/-- The mark of a counter says that its alarm is spent. -/
private theorem latched_after (calls : List Call) (device : Device) :
    ((fresh.after calls).get device).latched = true ↔ AlarmSpent device calls := by
  induction calls using List.reverseRecOn with
  | nil =>
    constructor
    · intro h
      change (fresh.get device).latched = true at h
      rw [get_fresh] at h
      cases h
    · rintro ⟨earlier, later, h, -⟩
      simp at h
  | append_singleton calls c ih =>
    rw [alarmSpent_concat, after_concat, latched_call, ih]

/-- The failure that takes a counter to the limit in force raises its alarm, with the limit as the value, exactly
where the alarm is not spent already; where it is spent, no alarm is raised. -/
theorem alarm_at_crossing (calls : List Call) (device : Device)
    (hat : ((fresh.after calls).failure device).2.current device = ((fresh.after calls).policy device).limit) :
    (((fresh.after calls).failure device).1 = some ⟨device, ((fresh.after calls).policy device).limit⟩ ↔
      ¬ AlarmSpent device calls) ∧
    (((fresh.after calls).failure device).1 = none ↔ AlarmSpent device calls) := by
  rw [← latched_after]
  have hvalue : ((fresh.after calls).get device).failure.current = ((fresh.after calls).policy device).limit := by
    rw [current, failure, DeviceTable.get_set, if_pos rfl] at hat
    exact hat
  have hle : ((fresh.after calls).get device).policy.limit ≤ ((fresh.after calls).get device).failure.current := by
    rw [hvalue]
    exact UInt8.le_refl _
  have halarm : ((fresh.after calls).get device).alarmsAtFailure = !((fresh.after calls).get device).latched := by
    rw [Counter.alarmsAtFailure_eq, decide_eq_true hle, Bool.true_and]
  rw [failure, halarm, hvalue]
  cases ((fresh.after calls).get device).latched <;> simp

theorem alarm_at_crossing_imtq :
    ¬ AlarmSpent .imtq [.setPolicy .imtq ⟨10, 5, 2⟩, .report ⟨.imtq, false⟩] ∧
      AlarmSpent .imtq [.setPolicy .imtq ⟨10, 5, 2⟩, .report ⟨.imtq, false⟩, .report ⟨.imtq, false⟩] :=
  ⟨(alarm_at_crossing [.setPolicy .imtq ⟨10, 5, 2⟩, .report ⟨.imtq, false⟩] .imtq (by decide)).1.1 (by decide),
    (alarm_at_crossing [.setPolicy .imtq ⟨10, 5, 2⟩, .report ⟨.imtq, false⟩, .report ⟨.imtq, false⟩] .imtq
      (by decide)).2.1 (by decide)⟩

/-- A counter that was at its limit and whose limit is moved up crosses the new limit without an alarm. -/
theorem crossing_without_alarm :
    let counters := fresh.after
      [.setPolicy .imtq ⟨10, 5, 2⟩, .report ⟨.imtq, false⟩, .report ⟨.imtq, false⟩, .setPolicy .imtq ⟨20, 5, 2⟩,
        .report ⟨.imtq, false⟩]
    counters.current .imtq < (counters.policy .imtq).limit ∧
      (counters.failure .imtq).2.current .imtq = (counters.policy .imtq).limit ∧
      (counters.failure .imtq).1 = none := by
  decide

end Counters

end Spacecraft
