import Spacecraft.Settings.Store

/-!
# Runs of the settings store

A run of the settings store is made of changes of the settings; between them the chips may be disturbed (`Run`).  A run
notes for every change what was to be stored, which chips took it and what the caller was told.  A chip whose content
nobody but the store touches holds the record of the last change that it took (`Run.record_eq`).
-/

namespace Spacecraft

namespace SettingsStore

/-- A change of the settings: what was to be stored, the chips that took it, and the answer. -/
structure Attempt where
  settings : Settings
  taken : Triple Bool
  result : Except Failure Unit

/-- The attempt that a change of the settings makes. -/
def attempt (change : Settings → Settings) (store : SettingsStore) : Attempt where
  settings := change store.current
  taken := store.bank.map fun chip => chip.accepts address Settings.recordLength
  result := (store.modify change).1

/-- How a settings store comes from one state to another, with the attempts on the way, latest first: by changes, and
by what happens to the chips in between as far as `disturbs` allows it. -/
inductive Run (disturbs : ChipBank → ChipBank → Prop) (start : SettingsStore) : List Attempt → SettingsStore → Prop where
  | start : Run disturbs start [] start
  | modify {attempts : List Attempt} {store : SettingsStore} (change : Settings → Settings) :
      Run disturbs start attempts store → Run disturbs start (store.attempt change :: attempts) (store.modify change).2.2
  | disturb {attempts : List Attempt} {store : SettingsStore} {bank : ChipBank} :
      Run disturbs start attempts store → disturbs store.bank bank → Run disturbs start attempts { store with bank }

/-- The chips keep their contents; any of them may begin or cease to refuse accesses. -/
def SameContents (bank bank' : ChipBank) : Prop := ∀ i, (bank'.get i).contents = (bank.get i).contents

/-- The chips with their contents, of which those named refuse accesses. -/
def switch (failing : Triple Bool) (bank : ChipBank) : ChipBank := Triple.zipWith Chip.setFailing failing bank

/-- All chips but one stay as they are; that one may become any chip. -/
def OnlyAlters (bad : Fin 3) (bank bank' : ChipBank) : Prop := ∀ i, i ≠ bad → bank'.get i = bank.get i

/-- Three working chips that hold nothing but the record of settings. -/
def holding (settings : Settings) : ChipBank := .replicate ⟨settings.encode, false⟩

/-- The record of the last attempt that a chip took, in attempts that stand latest first; else what it held before. -/
def lastTaken (i : Fin 3) (before : Bytes) (attempts : List Attempt) : Bytes :=
  ((attempts.find? fun a => a.taken.get i).map fun a => a.settings.encode).getD before

theorem lastTaken_cons (i : Fin 3) (before : Bytes) (a : Attempt) (attempts : List Attempt) :
    lastTaken i before (a :: attempts) = if a.taken.get i then a.settings.encode else lastTaken i before attempts := by
  unfold lastTaken
  rw [List.find?_cons]
  cases a.taken.get i <;> rfl

/-- The last record is the one from before or that of an attempt. -/
theorem lastTaken_mem (i : Fin 3) (before : Bytes) (attempts : List Attempt) :
    lastTaken i before attempts = before ∨ ∃ a ∈ attempts, lastTaken i before attempts = a.settings.encode := by
  induction attempts with
  | nil => exact Or.inl rfl
  | cons a attempts ih =>
    rw [lastTaken_cons]
    split
    · exact Or.inr ⟨a, List.mem_cons_self, rfl⟩
    · rcases ih with h | ⟨b, hb, h⟩
      · exact Or.inl h
      · exact Or.inr ⟨b, List.mem_cons_of_mem _ hb, h⟩

variable {bank bank' : ChipBank} {store start : SettingsStore} {attempts : List Attempt} {i j : Fin 3}

@[simp]
theorem get_taken_attempt (change : Settings → Settings) (store : SettingsStore) (i : Fin 3) :
    (store.attempt change).taken.get i = working store.bank i := by
  rw [attempt, Triple.get_map, working]

theorem holding_spec (settings : Settings) (i : Fin 3) :
    Settings.recordLength ≤ ((holding settings).get i).contents.length ∧
      record (holding settings) i = settings.encode := by
  have hlength := settings.length_encode
  rcases Triple.index_cases i with rfl | rfl | rfl <;>
    exact ⟨Nat.le_of_eq hlength.symm, List.take_of_length_le (Nat.le_of_eq hlength)⟩

private theorem get_switch (failing : Triple Bool) (bank : ChipBank) (i : Fin 3) :
    (switch failing bank).get i = (bank.get i).setFailing (failing.get i) := by
  rcases Triple.index_cases i with rfl | rfl | rfl <;> rfl

theorem sameContents_switch (failing : Triple Bool) (bank : ChipBank) : SameContents bank (switch failing bank) := by
  intro i
  rw [get_switch]
  rfl

/-- A chip that is large enough works exactly where it is not named. -/
theorem working_switch {failing : Triple Bool} (hsize : Settings.recordLength ≤ (bank.get i).contents.length) :
    working (switch failing bank) i = !failing.get i := by
  rw [working_of_size, get_switch]
  · rfl
  · rw [get_switch]
    exact hsize

theorem SameContents.record_eq (h : SameContents bank bank') : record bank' i = record bank i := by
  rw [record, record, Chip.stored, Chip.stored, h i]

/-- A chip whose content stays between the changes holds the record of the last change that it took. -/
theorem Run.record_eq (run : Run SameContents start attempts store) :
    record store.bank i = lastTaken i (record start.bank i) attempts := by
  induction run with
  | start => rfl
  | modify change _ ih => rw [record_modify, lastTaken_cons, get_taken_attempt, ih]; rfl
  | disturb _ h ih => rw [h.record_eq, ih]

/-- The chips keep their sizes. -/
theorem Run.length_contents (run : Run SameContents start attempts store) :
    (store.bank.get i).contents.length = (start.bank.get i).contents.length := by
  induction run with
  | start => rfl
  | modify change _ ih => rw [get_bank_modify, Chip.length_contents_write, ih]
  | disturb _ h ih => rw [h i, ih]

end SettingsStore

end Spacecraft
