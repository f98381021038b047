import Spacecraft.Proofs.Settings.Run

/-!
# Chips that missed a write

A chip that refuses a write keeps the whole record of an earlier one.  So the chips can hold records of different ages,
and the vote on each byte need not go to one of them.  What two chips hold is loaded whole (`loads_record_of_two_chips`);
three different records can mix into one that no check accepts (`loads_none_of_three_records`).  After a change that
was stored only one chip can be stale.  It is outvoted where all chips answer; where another chip does not answer, it
decides if it comes first (`loads_stored_change`, `stale_chip_decides`).
-/

namespace Spacecraft

namespace SettingsStore

variable {bank : ChipBank} {store : SettingsStore} {attempts : List Attempt}

/-! ### Records of different ages -/

/-- Where all chips work, the vote of their records is loaded. -/
theorem current_load_of_all (h : ∀ i, working bank i = true) :
    (load bank).1.current = (Settings.ofRecord? (ChipBank.vote Settings.recordLength
      ⟨some (record bank 0), some (record bank 1), some (record bank 2)⟩)).getD .initial := by
  have hget : ∀ i, (bank.answers address Settings.recordLength).get i = some (record bank i) :=
    fun i => ChipBank.get_answers_of_accepts (h i)
  have hanswers : bank.answers address Settings.recordLength =
      ⟨some (record bank 0), some (record bank 1), some (record bank 2)⟩ := by
    rw [← hget 0, ← hget 1, ← hget 2]
    rfl
  rw [← hanswers]
  exact current_load (ChipBank.fst_read (h 0))

/-- The last record that a chip took is accepted, and it is that of the first settings or of a change. -/
private theorem ofRecord?_lastTaken {first : Settings} {bytes : Bytes} (hvalid : Settings.ofRecord? bytes = some first)
    (i : Fin 3) (attempts : List Attempt) : ∃ settings ∈ first :: attempts.map (·.settings),
      Settings.ofRecord? (lastTaken i bytes attempts) = some settings := by
  rcases lastTaken_mem i bytes attempts with h | ⟨a, ha, h⟩
  · rw [h]
    exact ⟨first, List.mem_cons_self, hvalid⟩
  · rw [h]
    exact ⟨a.settings, List.mem_cons_of_mem _ (List.mem_map_of_mem ha), Settings.ofRecord?_encode _⟩

/-- Two chips took a change that was stored. -/
private theorem Run.two_taken {disturbs : ChipBank → ChipBank → Prop} {start : SettingsStore} {a : Attempt}
    (run : Run disturbs start attempts store) (ha : a ∈ attempts) (h : a.result = .ok ()) :
    ∃ i j, i ≠ j ∧ a.taken.get i = true ∧ a.taken.get j = true := by
  induction run with
  | start => exact absurd ha List.not_mem_nil
  | modify change _ ih =>
    rcases List.mem_cons.1 ha with rfl | ha
    · simp only [get_taken_attempt]
      exact fst_modify_eq_ok_iff.1 h
    · exact ih ha
  | disturb _ _ ih => exact ih ha

/-- With all chips readable after a run, each chip that was large enough at its start works. -/
theorem Run.working_switch {start : SettingsStore} (run : Run SameContents start attempts store) (i : Fin 3)
    (hsize : Settings.recordLength ≤ (start.bank.get i).contents.length) :
    working (switch (.replicate false) store.bank) i = true := by
  rw [SettingsStore.working_switch (run.length_contents.symm ▸ hsize)]
  rcases Triple.index_cases i with rfl | rfl | rfl <;> rfl

/-- With all chips readable after a run, a record that two chips hold is loaded. -/
private theorem Run.loads_of_two {start : SettingsStore} (run : Run SameContents start attempts store) {i j : Fin 3}
    (hij : i ≠ j) (hsize : ∀ i, Settings.recordLength ≤ (start.bank.get i).contents.length)
    (hsame : record store.bank j = record store.bank i) :
    (load (switch (.replicate false) store.bank)).1.current =
      (Settings.ofRecord? (record store.bank i)).getD .initial := by
  have hrecord : ∀ k, record (switch (.replicate false) store.bank) k = record store.bank k :=
    fun k => (sameContents_switch _ _).record_eq
  rw [← hrecord i]
  apply current_load_of_two hij (run.working_switch i (hsize i)) (run.working_switch j (hsize j))
  rw [hrecord, hrecord, hsame]

/-- A run of the settings store on chips that all hold one accepted record, in which any chips may refuse any write.
Each chip holds a whole record, that of the last change that it took or the first one.  With all chips readable, a
record that two of them hold is loaded, so the first settings or those of a change, and after a change that was stored
the settings of that change.  In any case what is loaded is the vote of the three records, or the defaults if the check
of the vote is wrong. -/
theorem loads_record_of_two_chips {first : Settings} {bytes : Bytes} (hvalid : Settings.ofRecord? bytes = some first)
    (hbank : ∀ i, Settings.recordLength ≤ (bank.get i).contents.length ∧ record bank i = bytes)
    (run : Run SameContents (load bank).1 attempts store) :
    let tried := first :: attempts.map (·.settings)
    let held := fun i => lastTaken i bytes attempts
    let loaded := (load (switch (.replicate false) store.bank)).1.current
    (∀ i, record store.bank i = held i ∧ ∃ settings ∈ tried, Settings.ofRecord? (held i) = some settings) ∧
    (∀ i j, i ≠ j → held i = held j → loaded ∈ tried ∧ Settings.ofRecord? (held i) = some loaded) ∧
    (∀ a earlier, attempts = a :: earlier → a.result = .ok () → loaded = a.settings) ∧
    loaded = (Settings.ofRecord? (ChipBank.vote Settings.recordLength
      ⟨some (held 0), some (held 1), some (held 2)⟩)).getD .initial := by
  intro tried held loaded
  have hheld : ∀ i, record store.bank i = held i := by
    intro i
    rw [run.record_eq, bank_load, (hbank i).2]
  have hwhole : ∀ i, ∃ settings ∈ tried, Settings.ofRecord? (held i) = some settings :=
    fun i => ofRecord?_lastTaken hvalid i attempts
  have hsize : ∀ i, Settings.recordLength ≤ ((load bank).1.bank.get i).contents.length := fun i => (hbank i).1
  have htwo : ∀ i j, i ≠ j → held i = held j → Settings.ofRecord? (held i) = some loaded := by
    intro i j hij hsame
    obtain ⟨settings, -, hsettings⟩ := hwhole i
    have hload := run.loads_of_two hij hsize (by rw [hheld, hheld, hsame])
    rw [hheld, hsettings] at hload
    rw [hsettings]
    exact congrArg some hload.symm
  refine ⟨fun i => ⟨hheld i, hwhole i⟩, fun i j hij hsame => ⟨?_, htwo i j hij hsame⟩, ?_, ?_⟩
  · obtain ⟨settings, hmem, hsettings⟩ := hwhole i
    rw [htwo i j hij hsame] at hsettings
    rw [Option.some.inj hsettings]
    exact hmem
  · rintro a earlier rfl hok
    obtain ⟨i, j, hij, hi, hj⟩ := run.two_taken List.mem_cons_self hok
    have hlast : ∀ k, a.taken.get k = true → held k = a.settings.encode := by
      intro k hk
      show lastTaken k bytes (a :: earlier) = _
      rw [lastTaken_cons, if_pos hk]
    have hloaded := htwo i j hij ((hlast i hi).trans (hlast j hj).symm)
    rw [hlast i hi, Settings.ofRecord?_encode] at hloaded
    exact (Option.some.inj hloaded).symm
  · have hload := current_load_of_all fun i => run.working_switch i (hsize i)
    rw [(sameContents_switch _ _).record_eq, (sameContents_switch _ _).record_eq, (sameContents_switch _ _).record_eq,
      hheld, hheld, hheld] at hload
    exact hload

theorem loads_record_that_two_chips_kept :
    let first : Settings := { Settings.initial with bootIndex := 7 }
    let second : Settings := { first with sailOpened := true }
    let store := (load (holding first)).1
    let once := ({ store with bank := switch ⟨false, false, true⟩ store.bank }.modify fun _ => second).2.2
    let twice := ({ once with bank := switch ⟨true, true, true⟩ once.bank }.modify fun _ => .initial).2.2
    (load (switch (.replicate false) twice.bank)).1.current = second := by
  intro first second store once twice
  have unchanged : Run SameContents store [] store := .start
  have run : Run SameContents store [_, _] twice :=
    .modify _ (.disturb (.modify _ (unchanged.disturb (sameContents_switch _ _))) (sameContents_switch _ _))
  obtain ⟨-, hloaded⟩ :=
    (loads_record_of_two_chips (Settings.ofRecord?_encode first) (holding_spec first) run).2.1 0 1 (by decide) rfl
  change Settings.ofRecord? second.encode = _ at hloaded
  rw [Settings.ofRecord?_encode] at hloaded
  exact (Option.some.inj hloaded).symm

/-- Three records of different ages: the vote takes the antenna mask of the two later chips and the number of attempts
of the first one, and what is loaded are neither the first settings nor those of a change. -/
theorem loads_none_of_three_records :
    let first : Settings := { Settings.initial with bootIndex := 7, sailAttempts := 3 }
    Settings.ofRecord? first.encode = some first ∧ (∀ i, record (holding first) i = first.encode) ∧
      ∃ attempts store, Run SameContents (load (holding first)).1 attempts store ∧
        (load (switch (.replicate false) store.bank)).1.current ∉ first :: attempts.map (·.settings) := by
  intro first
  have unchanged : Run SameContents (load (holding first)).1 [] (load (holding first)).1 := .start
  have once := (unchanged.disturb (sameContents_switch ⟨false, true, true⟩ _)).modify
    fun settings => { settings with antennaMask := 1, sailAttempts := 1 }
  have twice := (once.disturb (sameContents_switch ⟨true, false, true⟩ _)).modify
    fun settings => { settings with antennaMask := 0, sailAttempts := 2 }
  refine ⟨Settings.ofRecord?_encode first, fun i => (holding_spec first i).2, _, _, twice, fun hmem => ?_⟩
  have hpair := List.mem_map_of_mem (f := fun settings => (settings.antennaMask, settings.sailAttempts)) hmem
  rw [current_load_of_all (by decide +kernel), Settings.ofRecord?] at hpair
  revert hpair
  -- Whether the check of the mixed record is right or not: neither its settings nor the defaults were ever there.
  split
  · decide +kernel
  · decide +kernel

/-! ### A stored change and one stale chip -/

/-- Where a condition holds of some chip, there is a first one of which it holds. -/
private theorem exists_first (p : Fin 3 → Bool) (i : Fin 3) (hi : p i = true) :
    ∃ k, p k = true ∧ ∀ j < k, p j = false := by
  by_cases h : ∀ j < i, p j = false
  · exact ⟨i, hi, h⟩
  · obtain ⟨j, hj, hp⟩ : ∃ j, j < i ∧ p j = true := by
      simpa using h
    exact exists_first p j hp
termination_by i.val

/-- Where some chip refuses a read and another does not, one of them decides. -/
private theorem exists_decidedBy {i j : Fin 3} (hi : working bank i = true) (hj : working bank j = false) :
    ∃ k, bank.DecidedBy k address Settings.recordLength := by
  obtain ⟨k, hk, hfirst⟩ := exists_first (working bank) i hi
  exact ⟨k, ⟨j, hj⟩, hk, hfirst⟩

/-- A change that no more than one chip missed is stored.  Then let chips refuse to be read, again no more than one.
What is loaded are the settings of the change, unless some chip refuses and the first one that does not is the chip that
missed the change; then that chip decides, and what it held before is loaded. -/
theorem loads_stored_change {failing : Triple Bool} (change : Settings → Settings)
    (hsize : ∀ i, Settings.recordLength ≤ (store.bank.get i).contents.length)
    (hmissed : store.bank.count (fun chip => chip.failing) ≤ 1) (hfailing : failing.count (fun f => f) ≤ 1) :
    let later := switch failing (store.modify change).2.2.bank
    (store.modify change).1 = .ok () ∧
    (∀ stale, (store.bank.get stale).failing = true → later.DecidedBy stale address Settings.recordLength →
      (load later).1.current = (Settings.ofRecord? (record store.bank stale)).getD .initial) ∧
    ((∀ stale, (store.bank.get stale).failing = true → ¬ later.DecidedBy stale address Settings.recordLength) →
      (load later).1.current = change store.current) := by
  intro later
  have htook : ∀ i, working store.bank i = !(store.bank.get i).failing := fun i => working_of_size (hsize i)
  have hworking : ∀ i, working later i = !failing.get i := by
    intro i
    apply working_switch
    rw [get_bank_modify, Chip.length_contents_write]
    exact hsize i
  have hrecord : ∀ i, record later i =
      if working store.bank i then (change store.current).encode else record store.bank i :=
    fun i => (sameContents_switch _ _).record_eq.trans record_modify
  obtain ⟨i, j, hij, hi, hj⟩ := Triple.count_le_one_iff.1 hmissed
  have hi' : working store.bank i = true := by rw [htook, hi]; rfl
  have hj' : working store.bank j = true := by rw [htook, hj]; rfl
  refine ⟨fst_modify_eq_ok_iff.2 ⟨i, j, hij, hi', hj'⟩, ?_, ?_⟩
  · intro stale hstale hdecides
    rw [current_load_of_decidedBy hdecides, hrecord, htook, hstale]
    rfl
  · intro hfresh
    by_cases hall : ∀ k, working later k = true
    · have hload := current_load_of_two hij (hall i) (hall j) (by rw [hrecord, hrecord, if_pos hi', if_pos hj'])
      rw [hload, hrecord, hi', if_pos rfl, Settings.ofRecord?_encode]
      rfl
    · -- One chip refuses, so one of the others decides, and it took the change.
      obtain ⟨l, hl⟩ : ∃ l, working later l = false := by
        simpa using hall
      obtain ⟨m, -, -, hm, -⟩ := Triple.count_le_one_iff.1 hfailing
      obtain ⟨k, hk⟩ := exists_decidedBy ((hworking m).trans (by rw [hm]; rfl)) hl
      have hk' : working store.bank k = true := by
        rw [htook, Bool.not_eq_true', ← Bool.not_eq_true]
        exact fun h => hfresh k h hk
      rw [current_load_of_decidedBy hk, hrecord, hk', if_pos rfl, Settings.ofRecord?_encode]
      rfl

theorem loads_stored_change_past_a_refusing_chip :
    let store : SettingsStore := ⟨switch ⟨false, false, true⟩ (ChipBank.blank 256), .initial⟩
    let change (settings : Settings) : Settings := { settings with bootIndex := 8 }
    (load (switch ⟨true, false, false⟩ (store.modify change).2.2.bank)).1.current = change .initial := by
  intro store change
  have hfailing : Triple.count (fun f => f) ⟨true, false, false⟩ ≤ 1 := by decide
  have h : _ ∧ _ ∧ (_ → (load (switch ⟨true, false, false⟩ (store.modify change).2.2.bank)).1.current = _) :=
    loads_stored_change change (by decide +kernel) (by decide) hfailing
  exact h.2.2 (by decide +kernel)

/-- A chip that missed a stored change decides where the chip after it does not answer: the settings from before the
change come back. -/
theorem stale_chip_decides :
    let first : Settings := { Settings.initial with bootIndex := 7 }
    let store : SettingsStore := ⟨switch ⟨true, false, false⟩ (holding first), first⟩
    let change (settings : Settings) : Settings := { settings with bootIndex := 8 }
    (store.modify change).1 = .ok () ∧ change first ≠ first ∧
      (load (switch ⟨false, true, false⟩ (store.modify change).2.2.bank)).1.current = first := by
  intro first store change
  refine ⟨fst_modify_eq_ok_iff.2 ⟨1, 2, by decide +kernel⟩, by decide, ?_⟩
  have hdecides : (switch ⟨false, true, false⟩ (store.modify change).2.2.bank).DecidedBy 0 address
      Settings.recordLength := by
    decide +kernel
  rw [current_load_of_decidedBy hdecides, (sameContents_switch _ _).record_eq, record_modify, if_neg (by decide +kernel),
    (sameContents_switch _ _).record_eq, (holding_spec first 0).2, Settings.ofRecord?_encode]
  rfl

end SettingsStore

end Spacecraft
