import Spacecraft.Proofs.Settings.Run

/-!
# Settings and one bad chip

Two chips that stay healthy are enough: they take every change, so that no change is ever refused, and their record
outvotes whatever the third chip answers (`survives_bad_chip`).
-/

namespace Spacecraft

namespace SettingsStore

variable {bad : Fin 3} {bank : ChipBank} {start store : SettingsStore} {attempts : List Attempt}

/-- Every change was stored; the chips but one work, and once there was a change they hold the settings in force. -/
structure KeptBeside (bad : Fin 3) (attempts : List Attempt) (store : SettingsStore) : Prop where
  working : ∀ i, i ≠ bad → working store.bank i = true
  record : ∀ i, i ≠ bad → attempts ≠ [] → record store.bank i = store.current.encode
  results : ∀ a ∈ attempts, a.result = .ok ()

theorem KeptBeside.modify (h : KeptBeside bad attempts store) (change : Settings → Settings) :
    KeptBeside bad (store.attempt change :: attempts) (store.modify change).2.2 where
  working := fun i hi => working_modify.trans (h.working i hi)
  record := fun i hi _ => by rw [record_modify, if_pos (h.working i hi)]; rfl
  results := by
    obtain ⟨i, j, hij, hi, hj⟩ := Triple.exists_two_others bad
    rw [List.forall_mem_cons]
    exact ⟨fst_modify_eq_ok_iff.2 ⟨i, j, hij, h.working i hi, h.working j hj⟩, h.results⟩

theorem KeptBeside.disturb (h : KeptBeside bad attempts store) (halters : OnlyAlters bad store.bank bank) :
    KeptBeside bad attempts { store with bank } where
  working := fun i hi => by
    rw [SettingsStore.working, halters i hi]
    exact h.working i hi
  record := fun i hi hne => by
    rw [SettingsStore.record, halters i hi]
    exact h.record i hi hne
  results := h.results

private theorem Run.keptBeside (h : ∀ i, i ≠ bad → working start.bank i = true)
    (run : Run (OnlyAlters bad) start attempts store) : KeptBeside bad attempts store := by
  induction run with
  | start => exact ⟨h, fun _ _ hne => absurd rfl hne, fun _ ha => absurd ha List.not_mem_nil⟩
  | modify change _ ih => exact ih.modify change
  | disturb _ halters ih => exact ih.disturb halters

/-- A run of the settings store in which one chip may refuse accesses and change its content in any way at any time,
while the two others work and are large enough for the record.  Every change is stored, and once there was a change
what is loaded from the chips are the settings in force. -/
theorem survives_bad_chip (hhealthy : ∀ i, i ≠ bad → (bank.get i).failing = false ∧
      Settings.recordLength ≤ (bank.get i).contents.length)
    (run : Run (OnlyAlters bad) (load bank).1 attempts store) :
    (∀ a ∈ attempts, a.result = .ok ()) ∧ (attempts ≠ [] → (load store.bank).1.current = store.current) := by
  have hworking : ∀ i, i ≠ bad → working bank i = true := by
    intro i hi
    rw [working_of_size (hhealthy i hi).2, (hhealthy i hi).1]
    rfl
  have hkept := run.keptBeside hworking
  refine ⟨hkept.results, fun hne => ?_⟩
  -- The two others hold one record, so what the third one answers does not matter.
  obtain ⟨i, j, hij, hi, hj⟩ := Triple.exists_two_others bad
  have hload := current_load_of_two hij (hkept.working i hi) (hkept.working j hj)
    ((hkept.record j hj hne).trans (hkept.record i hi hne).symm)
  rw [hload, hkept.record i hi hne, Settings.ofRecord?_encode]
  rfl

theorem survives_bad_chip_that_answers_zeros :
    let bank : ChipBank := switch ⟨true, false, false⟩ (ChipBank.blank 72)
    let store := ((load bank).1.modify fun settings => { settings with bootIndex := 7 }).2.2
    (load (store.bank.set 0 (Chip.blank 72))).1.current.bootIndex = 7 := by
  intro bank store
  have run : Run (OnlyAlters 0) (load bank).1
      [(load bank).1.attempt fun settings => { settings with bootIndex := 7 }]
      { store with bank := store.bank.set 0 (Chip.blank 72) } := by
    refine .disturb (.modify _ .start) fun i hi => ?_
    rw [Triple.get_set, if_neg hi]
  have hload := (survives_bad_chip (by decide) run).2 (List.cons_ne_nil _ _)
  exact congrArg Settings.bootIndex hload

end SettingsStore

end Spacecraft
