import Spacecraft.Proofs.Clock.Durability
import Spacecraft.Storage.Schedule

/-!
# Saves that miss copies

Any write may fail, so a save reaches some of the copies and misses the others (`find?_save`).  A copy that a save has
reached never holds an earlier time again (`KeptOrLater`), but one that every save misses keeps what it holds; once
all three differ, the vote goes to the smallest, and what it holds is recovered (`recover_lt_iff`).
-/

namespace Spacecraft

namespace TimeCopies

/-- The values that the copies hold; a copy that is missing or too short counts as zero. -/
def held {σ : Type} [FileStore σ] (store : σ) : Triple UInt64 := paths.map fun path => (read store path).getD 0

/-- Whatever becomes of writes, the contents of the copies stay as they are. -/
def SameCopies (store store' : Scheduled Files) : Prop :=
  ∀ path ∈ paths.toList, store'.store.find? path = store.store.find? path

instance (store store' : Scheduled Files) : Decidable (SameCopies store store') :=
  inferInstanceAs (Decidable (∀ _ ∈ _, _))

/-! ### What a save leaves -/

private theorem find?_scheduledWrite (path : String) (bytes : Bytes) (s : Scheduled Files) (other : String) :
    (FileStore.write path bytes s).2.store.find? other = s.store.find? other ∨
      (FileStore.write path bytes s).2.store.find? other = some bytes := by
  show (Scheduled.write path bytes s).2.store.find? other = _ ∨ (Scheduled.write path bytes s).2.store.find? other = _
  rw [Scheduled.write]
  split
  · exact Or.inl rfl
  · show (s.store.write path bytes).2.find? other = _ ∨ (s.store.write path bytes).2.find? other = _
    rw [Files.find?_write]
    split
    · exact Or.inr rfl
    · exact Or.inl rfl

private theorem find?_scheduledWriteAll (bytes : Bytes) (names : List String) (s : Scheduled Files) (other : String) :
    (writeAll bytes names s).2.store.find? other = s.store.find? other ∨
      (writeAll bytes names s).2.store.find? other = some bytes := by
  induction names generalizing s with
  | nil => exact Or.inl rfl
  | cons path rest ih =>
    rcases ih (FileStore.write path bytes s).2 with hrest | hrest
    · exact (find?_scheduledWrite path bytes s other).imp hrest.trans hrest.trans
    · exact Or.inr hrest

private theorem find?_attempt (bytes : Bytes) (n : Nat) (s : Scheduled Files) (other : String) :
    (attempt bytes n s).store.find? other = s.store.find? other ∨
      (attempt bytes n s).store.find? other = some bytes := by
  induction n generalizing s with
  | zero => exact Or.inl rfl
  | succ n ih =>
    have hfirst := find?_scheduledWriteAll bytes paths.toList s other
    rw [attempt]
    generalize writeAll bytes paths.toList s = outcome at hfirst ⊢
    obtain ⟨errors, next⟩ := outcome
    simp only
    split
    · exact hfirst
    · rcases ih next with hrest | hrest
      · exact hfirst.imp hrest.trans hrest.trans
      · exact Or.inr hrest

/-- A save reaches a copy or leaves it as it is. -/
theorem find?_save (time : Duration) (s : Scheduled Files) (other : String) :
    (save time s).store.find? other = s.store.find? other ∨
      (save time s).store.find? other = some (content time) :=
  find?_attempt (content time) attempts s other

/-! ### The vote -/

theorem vote_of_majority {values : Triple UInt64} {value : UInt64} (h : values.majority? = some value) :
    vote values = value := by
  rw [vote, h, Option.getD_some]

/-- Without a majority the vote goes to the smallest value. -/
theorem vote_of_none {values : Triple UInt64} (h : values.majority? = none) :
    (∀ i, vote values ≤ values.get i) ∧ ∃ i, vote values = values.get i := by
  rw [vote, h, Option.getD_none]
  obtain ⟨x, y, z⟩ := values
  have hfirst : min x (min y z) ≤ x := Std.min_le_left
  have hrest : min x (min y z) ≤ min y z := Std.min_le_right
  constructor
  · intro i
    rcases Triple.index_cases i with rfl | rfl | rfl
    · exact hfirst
    · exact UInt64.le_trans hrest Std.min_le_left
    · exact UInt64.le_trans hrest Std.min_le_right
  · rcases Std.min_eq_or (a := x) (b := min y z) with hx | hyz
    · exact ⟨0, hx⟩
    · rcases Std.min_eq_or (a := y) (b := z) with hy | hz
      · exact ⟨1, hyz.trans hy⟩
      · exact ⟨2, hyz.trans hz⟩

/-- Where two values are not below a bound, at most one is. -/
private theorem unique_below {values : Triple UInt64} {bound : UInt64}
    (htwo : 2 ≤ values.count fun value => bound ≤ value)
    {i j : Fin 3} (hi : values.get i < bound) (hj : values.get j < bound) : i = j := by
  refine Decidable.byContradiction fun hne => ?_
  have hbelow : 2 ≤ values.count fun value => !decide (bound ≤ value) :=
    Triple.two_le_count_iff.2 ⟨i, j, hne, by simpa using UInt64.not_le.2 hi, by simpa using UInt64.not_le.2 hj⟩
  have hsum := Triple.count_add_count_not (fun value => decide (bound ≤ value)) values
  omega

/-- Where two of three values are not below a bound, the vote goes below it exactly if no two agree and one is below
it; then the vote goes to that one.  -/
private theorem vote_lt_iff {values : Triple UInt64} {bound : UInt64}
    (htwo : 2 ≤ values.count fun value => bound ≤ value) :
    (vote values < bound ↔ values.majority? = none ∧ ∃ i, values.get i < bound) ∧
      ∀ i, values.majority? = none → values.get i < bound → vote values = values.get i := by
  refine ⟨⟨fun hlt => ?_, fun ⟨hnone, i, hi⟩ => ?_⟩, fun i hnone hi => ?_⟩
  · cases hmajority : values.majority? with
    | none =>
      obtain ⟨i, hi⟩ := (vote_of_none hmajority).2
      exact ⟨rfl, i, hi ▸ hlt⟩
    | some value =>
      -- two copies hold the value, and at most one is below the bound
      rw [vote_of_majority hmajority] at hlt
      obtain ⟨i, j, hne, hi, hj⟩ := Triple.two_le_count_iff.1 (Triple.majority?_eq_some_iff.1 hmajority)
      rw [decide_eq_true_eq] at hi hj
      exact absurd (unique_below htwo (hi ▸ hlt) (hj ▸ hlt)) hne
  · exact UInt64.lt_of_le_of_lt ((vote_of_none hnone).1 i) hi
  · obtain ⟨hle, j, hj⟩ := vote_of_none hnone
    have hlt : values.get j < bound := hj ▸ UInt64.lt_of_le_of_lt (hle i) hi
    rw [hj, unique_below htwo hlt hi]

theorem get_held_content {s : Scheduled Files} {i : Fin 3} {time : Duration}
    (h : s.store.find? (paths.get i) = some (content time)) : (held s).get i = time.millis64 := by
  have hread : read s (paths.get i) = read s.store (paths.get i) := rfl
  rw [held, Triple.get_map, hread, read_content h, Option.getD_some]

end TimeCopies

namespace HeardClock

open TimeCopies

variable {ν : Type}

private theorem Run.time_le {σ : Type} [FileStore σ] {calls : Calls} {disturbs : σ → σ → Prop}
    {start c : HeardClock ν σ}
    {changes : List Clock.Change} (run : Run calls disturbs start changes c) :
    ∀ change ∈ changes, change.time ≤ c.clock.current := by
  refine run.invariant (motive := fun changes c => ∀ change ∈ changes, change.time ≤ c.clock.current)
    (fun _ hmem => absurd hmem List.not_mem_nil) ?_ ?_ (fun _ h => h) (fun h _ => h)
  · intro changes c change later h step
    obtain ⟨hle, htime, -⟩ := step.frame
    refine List.forall_mem_cons.2 ⟨Nat.le_of_eq (congrArg Duration.nanos htime.symm), fun earlier hmem => ?_⟩
    exact Nat.le_trans (h earlier hmem) hle
  · intro changes c later _ h hbroken change hmem
    exact Nat.le_trans (h change hmem) hbroken.frame.1

/-- Since the start every copy stayed as it was, or a save of a time since then has reached it. -/
structure KeptOrLater (start c : HeardClock ν (Scheduled Files)) : Prop where
  moved : start.clock.current ≤ c.clock.current
  copies : ∀ path ∈ paths.toList, c.store.store.find? path = start.store.store.find? path ∨
    ∃ time, start.clock.current ≤ time ∧ time ≤ c.clock.current ∧ c.store.store.find? path = some (content time)

namespace KeptOrLater

variable {start c : HeardClock ν (Scheduled Files)}

theorem carryOut (h : KeptOrLater start c) {change : Clock.Change} {later : Clock}
    (step : Clock.Step c.clock change later) : KeptOrLater start ({ c with clock := later }.carryOut change) := by
  obtain ⟨hle, htime, -⟩ := step.frame
  refine ⟨Nat.le_trans h.moved hle, fun path hpath => ?_⟩
  show (change.save c.store).store.find? path = _ ∨
    ∃ time, _ ∧ time ≤ later.current ∧ (change.save c.store).store.find? path = _
  have hbefore : c.store.store.find? path = start.store.store.find? path ∨
      ∃ time, start.clock.current ≤ time ∧ time ≤ later.current ∧ c.store.store.find? path = some (content time) :=
    (h.copies path hpath).imp_right fun ⟨time, hfrom, hto, hfind⟩ => ⟨time, hfrom, Nat.le_trans hto hle, hfind⟩
  rw [Clock.Change.save]
  split
  · rcases find?_save change.time c.store path with hkept | hreached
    · rw [hkept]
      exact hbefore
    · refine Or.inr ⟨change.time, ?_, Nat.le_of_eq (congrArg Duration.nanos htime.symm), hreached⟩
      exact htime ▸ Nat.le_trans h.moved hle
  · exact hbefore

theorem breakOff (h : KeptOrLater start c) {later : Clock} (hbroken : Clock.BreaksOff c.clock later) :
    KeptOrLater start { c with clock := later } where
  moved := Nat.le_trans h.moved hbroken.frame.1
  copies path hpath := (h.copies path hpath).imp_right fun ⟨time, hfrom, hto, hfind⟩ =>
    ⟨time, hfrom, Nat.le_trans hto hbroken.frame.1, hfind⟩

theorem disturb (h : KeptOrLater start c) {store : Scheduled Files} (hsame : SameCopies c.store store) :
    KeptOrLater start { c with store } where
  moved := h.moved
  copies path hpath := by
    show store.store.find? path = _ ∨ ∃ time, _ ∧ _ ∧ store.store.find? path = _
    rw [hsame path hpath]
    exact h.copies path hpath

private theorem of_run {changes : List Clock.Change} (run : Run .any SameCopies start changes c) :
    KeptOrLater start c :=
  run.invariant (motive := fun _ c => KeptOrLater start c) ⟨Nat.le_refl _, fun _ _ => Or.inl rfl⟩
    (fun h step => h.carryOut step) (fun _ h hbroken => h.breakOff hbroken) (fun _ h => ⟨h.moved, h.copies⟩)
    (fun h hsame => h.disturb hsame)

end KeptOrLater

/-- A clock from its boot, while any writes may fail and any calls leave the range of time, and then on from where two
copies hold a time that was saved.  A copy that holds it never holds an earlier one again.  What the copies vote for is
before it exactly if no two copies agree and one of them is before it; that one has been missed by every save since, and
it is what is recovered. -/
theorem recover_lt_iff {config : MissionConfig} {store : Scheduled Files} {changes later : List Clock.Change}
    {c c' : HeardClock ν (Scheduled Files)} (run : Run .any SameCopies (boot config store) changes c)
    {change : Clock.Change} (hchange : change ∈ changes) (hrange : c'.clock.current.millis < UInt64.size)
    (htwo : 2 ≤ paths.count fun path => c.store.store.find? path = some (content change.time))
    (hlater : Run .any SameCopies c later c') :
    (∀ i, c.store.store.find? (paths.get i) = some (content change.time) →
        change.time.millis64 ≤ (held c'.store).get i) ∧
      (recover c'.store < change.time.wholeMillis ↔
        (held c'.store).majority? = none ∧ ∃ i, (held c'.store).get i < change.time.millis64) ∧
      ∀ i, (held c'.store).get i < change.time.millis64 →
        c'.store.store.find? (paths.get i) = c.store.store.find? (paths.get i) ∧
          ((held c'.store).majority? = none → recover c'.store = .ofMillis ((held c'.store).get i)) := by
  have hkept : KeptOrLater c c' := .of_run hlater
  have hpast : change.time ≤ c.clock.current := run.time_le change hchange
  have hword {time : Duration} (htime : time ≤ c'.clock.current) : time.millis64.toNat = time.millis :=
    UInt64.toNat_ofNat_of_lt' (Nat.lt_of_le_of_lt (Duration.millis_mono htime) hrange)
  have hboundWord : change.time.millis64.toNat = change.time.millis := hword (Nat.le_trans hpast hkept.moved)
  -- a copy that a later save has reached holds a later time
  have hlater : ∀ i, c'.store.store.find? (paths.get i) = c.store.store.find? (paths.get i) ∨
      change.time.millis64 ≤ (held c'.store).get i := by
    intro i
    refine (hkept.copies _ (Triple.get_mem_toList paths i)).imp_right fun ⟨time, hfrom, hto, hfind⟩ => ?_
    rw [get_held_content hfind, UInt64.le_iff_toNat_le, hboundWord, hword hto]
    exact Duration.millis_mono (Nat.le_trans hpast hfrom)
  have hholders : ∀ i, c.store.store.find? (paths.get i) = some (content change.time) →
      change.time.millis64 ≤ (held c'.store).get i := by
    intro i hfind
    rcases hlater i with hsame | hle
    · rw [get_held_content (hsame.trans hfind)]
      exact UInt64.le_refl _
    · exact hle
  have htwo' : 2 ≤ (held c'.store).count fun value => change.time.millis64 ≤ value := by
    obtain ⟨i, j, hne, hi, hj⟩ := Triple.two_le_count_iff.1 htwo
    exact Triple.two_le_count_iff.2 ⟨i, j, hne, decide_eq_true (hholders i (of_decide_eq_true hi)),
      decide_eq_true (hholders j (of_decide_eq_true hj))⟩
  have hrecover : recover c'.store < change.time.wholeMillis ↔ vote (held c'.store) < change.time.millis64 := by
    rw [UInt64.lt_iff_toNat_lt, hboundWord]
    show 1000000 * (vote (held c'.store)).toNat < 1000000 * change.time.millis ↔ _
    omega
  obtain ⟨hvote, hunique⟩ := vote_lt_iff htwo'
  refine ⟨hholders, hrecover.trans hvote, fun i hbelow => ⟨?_, fun hnone => ?_⟩⟩
  · exact (hlater i).resolve_right (UInt64.not_le.2 hbelow)
  · exact congrArg Duration.ofMillis (hunique i hnone hbelow)

/-- A clock whose first save, of 1000 s, misses the third copy. -/
def savedToTwo : HeardClock Unit (Scheduled Files) :=
  ((boot .standard ((Scheduled.ofStore .empty).schedule [false, false, true])).advance (.ofMillis 1000000)).2

/-- The writes of the next saves, of which those marked fail. -/
def failing (verdicts : List Bool) (c : HeardClock Unit (Scheduled Files)) : HeardClock Unit (Scheduled Files) :=
  { c with store := c.store.schedule verdicts }

/-- A second save that reaches the third copy alone. -/
theorem recover_lt_iff_third_copy_reached :
    let c' := ((failing [true, true, false, true, true, true, true, true, true] savedToTwo).advance
      (.ofMillis 1000000)).2
    ¬recover c'.store < .ofMillis 1000000 := by
  intro c'
  have run : Run .any SameCopies (boot .standard ((Scheduled.ofStore .empty).schedule [false, false, true]))
      [⟨.ofMillis 1000000, true, true⟩] savedToTwo :=
    .advance _ .start rfl
  have hlater : Run .any SameCopies savedToTwo [⟨.ofMillis 2000000, true, true⟩] c' :=
    .advance _ (.disturb .start (by decide +kernel)) rfl
  intro hlt
  have hnone := ((recover_lt_iff run (List.mem_singleton_self _) (by decide +kernel) (by decide +kernel) hlater).2.1.1
    hlt).1
  exact absurd hnone (by decide +kernel)

/-- A second save that reaches the first copy alone leaves three copies that differ, and the smallest of them was never
written.  -/
theorem rolls_back_to_missed_copy :
    let c' := ((failing [false, true, true, true, true, true, true, true, true] savedToTwo).advance
      (.ofMillis 1000000)).2
    2 ≤ paths.count (fun path => savedToTwo.store.store.find? path = some (content (.ofMillis 1000000))) ∧
      recover savedToTwo.store = .ofMillis 1000000 ∧ recover c'.store = .zero := by
  decide +kernel

end HeardClock

end Spacecraft
