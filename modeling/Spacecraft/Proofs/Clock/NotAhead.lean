import Spacecraft.Proofs.Clock.Rollback

/-!
# What is recovered is not ahead of the time

A copy that was never written may hold any time, also one far ahead of the clock.  It still cannot win the vote: some
copy is never ahead of the time, so the smallest one is not, and two copies that are ahead differ (`NotAhead`).  The
boot brings that about, because the clock starts at what the copies vote for (`notAhead_vote`), and a save can only
put times that have come in the place of others (`NotAhead.replace`).
-/

namespace Spacecraft

namespace TimeCopies

/-- Some value is not ahead of a time, and two values that are ahead of it differ. -/
structure NotAhead (now : Duration) (values : Triple UInt64) : Prop where
  exists_le : ∃ i, .ofMillis (values.get i) ≤ now
  le_of_eq : ∀ i j, i ≠ j → values.get i = values.get j → .ofMillis (values.get i) ≤ now

variable {now later : Duration} {values values' : Triple UInt64}

/-- The vote goes to a value that some copy holds. -/
private theorem exists_vote_eq (values : Triple UInt64) : ∃ i, vote values = values.get i := by
  cases hmajority : values.majority? with
  | none => exact (vote_of_none hmajority).2
  | some value =>
    obtain ⟨i, -, -, hi, -⟩ := Triple.two_le_count_iff.1 (Triple.majority?_eq_some_iff.1 hmajority)
    exact ⟨i, (vote_of_majority hmajority).trans (of_decide_eq_true hi).symm⟩

/-- The vote goes to a value that two copies hold. -/
theorem vote_of_eq {i j : Fin 3} (hne : i ≠ j) (h : values.get i = values.get j) : vote values = values.get i := by
  refine vote_of_majority (Triple.majority?_eq_some_iff.2 (Triple.two_le_count_iff.2 ⟨i, j, hne, ?_, ?_⟩))
  · exact decide_eq_true rfl
  · exact decide_eq_true h.symm

/-- Whatever the copies hold, they are not ahead of what they vote for. -/
theorem notAhead_vote (values : Triple UInt64) : NotAhead (.ofMillis (vote values)) values where
  exists_le := by
    obtain ⟨i, hi⟩ := exists_vote_eq values
    exact ⟨i, hi ▸ Nat.le_refl _⟩
  le_of_eq i j hne h := by
    rw [vote_of_eq hne h]
    exact Nat.le_refl _

private theorem NotAhead.vote_le (h : NotAhead now values) : .ofMillis (vote values) ≤ now := by
  cases hmajority : values.majority? with
  | none =>
    -- The vote goes to the smallest value.
    obtain ⟨i, hi⟩ := h.exists_le
    have hle := UInt64.le_iff_toNat_le.1 ((vote_of_none hmajority).1 i)
    exact Nat.le_trans (Nat.mul_le_mul_left 1000000 hle) hi
  | some value =>
    obtain ⟨i, j, hne, hi, hj⟩ := Triple.two_le_count_iff.1 (Triple.majority?_eq_some_iff.1 hmajority)
    rw [decide_eq_true_eq] at hi hj
    rw [vote_of_majority hmajority, ← hi]
    exact h.le_of_eq i j hne (hi.trans hj.symm)

/-- Time goes on, and values are replaced by others that are not ahead of it. -/
theorem NotAhead.replace (h : NotAhead now values) (hle : now ≤ later)
    (hvalues : ∀ i, values'.get i = values.get i ∨ .ofMillis (values'.get i) ≤ later) : NotAhead later values' where
  exists_le := by
    obtain ⟨i, hi⟩ := h.exists_le
    refine ⟨i, (hvalues i).elim (fun hkept => ?_) id⟩
    rw [hkept]
    exact Nat.le_trans hi hle
  le_of_eq i j hne heq := by
    rcases hvalues i with hi | hi
    · rcases hvalues j with hj | hj
      · rw [hi]
        exact Nat.le_trans (h.le_of_eq i j hne (hi.symm.trans (heq.trans hj))) hle
      · rw [heq]
        exact hj
    · exact hi

/-- The milliseconds that a save writes are not ahead of the time that it saves, also where they leave 64 bits. -/
theorem ofMillis_millis64_le (time : Duration) : .ofMillis time.millis64 ≤ time := by
  have hword : time.millis64.toNat ≤ time.millis := by
    rw [Duration.millis64, UInt64.toNat_ofNat']
    exact Nat.mod_le _ _
  exact Nat.le_trans (Nat.mul_le_mul_left 1000000 hword) (Duration.le_def.1 time.wholeMillis_le)

private theorem get_held_save (time : Duration) (s : Scheduled Files) (i : Fin 3) :
    (held (save time s)).get i = (held s).get i ∨ (held (save time s)).get i = time.millis64 := by
  refine (find?_save time s (paths.get i)).imp (fun hkept => ?_) get_held_content
  have hread : read (save time s) (paths.get i) = read s (paths.get i) := read_congr hkept
  rw [held, held, Triple.get_map, Triple.get_map, hread]

/-- Saving a time that has come. -/
theorem NotAhead.save {s : Scheduled Files} (h : NotAhead now (held s)) {time : Duration} (hnow : now ≤ later)
    (htime : time ≤ later) : NotAhead later (held (save time s)) :=
  h.replace hnow fun i => (get_held_save time s i).imp_right fun hsaved => by
    rw [hsaved]
    exact Nat.le_trans (ofMillis_millis64_le time) htime

end TimeCopies

namespace HeardClock

open TimeCopies

variable {ν : Type}

/-- A call of the clock. -/
inductive Call where
  | advance (delta : Duration)
  | set (point : TimePoint)

section Calls

variable {σ : Type} [FileStore σ]

/-- The clock after a call, whatever its answer. -/
def perform (call : Call) (c : HeardClock ν σ) : HeardClock ν σ :=
  match call with
  | .advance delta => (c.advance delta).2
  | .set point => (c.set point).2

/-- The clock after calls in order. -/
def after (calls : List Call) (c : HeardClock ν σ) : HeardClock ν σ :=
  calls.foldl (fun c call => c.perform call) c

/-- A call carries out a change, or else it stores nothing; one that leaves the range may move the counters in part. -/
theorem perform_cases (call : Call) (c : HeardClock ν σ) :
    (∃ later : Clock, c.clock.current ≤ later.current ∧ c.perform call = { c with clock := later }) ∨
      ∃ change later, Clock.Step c.clock change later ∧ c.perform call = { c with clock := later }.carryOut change := by
  cases call with
  | advance delta =>
    rw [perform, HeardClock.advance]
    rcases hadvance : c.clock.advance delta with ⟨e | change, later⟩
    · exact Or.inl ⟨later, (Clock.BreaksOff.advance delta e hadvance).frame.1, rfl⟩
    · exact Or.inr ⟨change, later, .advance delta hadvance, rfl⟩
  | set point =>
    rw [perform, HeardClock.set]
    rcases hset : c.clock.set point with ⟨e | _ | change, later⟩
    · exact Or.inl ⟨later, (Clock.BreaksOff.set point e hset).frame.1, rfl⟩
    · obtain ⟨-, rfl⟩ := Clock.set_eq_none_iff.1 hset
      exact Or.inl ⟨c.clock, Nat.le_refl _, rfl⟩
    · exact Or.inr ⟨change, later, .set point hset, rfl⟩

end Calls

private theorem notAhead_perform {c : HeardClock ν (Scheduled Files)} (h : NotAhead c.clock.current (held c.store))
    (call : Call) : NotAhead (c.perform call).clock.current (held (c.perform call).store) := by
  rcases c.perform_cases call with ⟨later, hle, heq⟩ | ⟨change, later, step, heq⟩ <;> rw [heq]
  · exact h.replace hle fun i => Or.inl rfl
  · obtain ⟨hle, htime, -⟩ := step.frame
    show NotAhead later.current (held (change.save c.store))
    rw [Clock.Change.save]
    split
    · exact h.save hle (htime ▸ Nat.le_refl _)
    · exact h.replace hle fun i => Or.inl rfl

private theorem notAhead_after {c : HeardClock ν (Scheduled Files)} (h : NotAhead c.clock.current (held c.store))
    (calls : List Call) : NotAhead (c.after calls).clock.current (held (c.after calls).store) := by
  induction calls generalizing c with
  | nil => exact h
  | cons call calls ih => exact ih (notAhead_perform h call)

/-- A clock that starts from any files, after any calls, also refused ones and ones that leave the range of time, while
each single write of a copy goes through or fails as it likes: what the copies vote for is not ahead of the clock. -/
theorem recover_le_current (config : MissionConfig) (store : Scheduled Files) (calls : List Call) :
    let c : HeardClock ν (Scheduled Files) := (boot config store).after calls
    recover c.store ≤ c.clock.current :=
  -- The clock of the boot shows what the copies vote for.
  (notAhead_after (c := boot config store) (notAhead_vote (held store)) calls).vote_le

/-- Two copies that are ahead of the clock and differ, and a save that reaches the third one only. -/
example :
    let files :=
      (Files.empty.insert "/time1" (content (.ofMillis 2000000))).insert "/time2" (content (.ofMillis 3000000))
    let start : HeardClock Unit (Scheduled Files) := boot .standard
      ((Scheduled.ofStore files).schedule [false, true, true, false, true, true, false, true, true])
    start.clock.current = .zero ∧
      recover (start.after [.advance (.ofMillis 1000000)]).store = .ofMillis 1000000 := by
  decide +kernel

end HeardClock

end Spacecraft
