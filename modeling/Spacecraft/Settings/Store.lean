import Spacecraft.Redundancy.ChipBank
import Spacecraft.Settings.Record

/-!
# Settings on three chips

The settings in force and the chips that keep them.  Loading falls back to the initial settings when the record is
unreadable or its check is wrong.  A change takes effect in memory even when it cannot be stored.
-/

namespace Spacecraft

/-- The settings in force and the chips that keep them. -/
structure SettingsStore where
  bank : ChipBank
  current : Settings
deriving DecidableEq

namespace SettingsStore

/-- Settings could not be stored. -/
structure Failure where
  cause : ChipBank.Failure
deriving DecidableEq

/-- The short name of a failure. -/
def Failure.kind (_ : Failure) : String := "Fram"

/-- The words in which a failure is reported. -/
def Failure.message (failure : Failure) : String :=
  s!"persistent state write failed: {failure.cause.message}"

/-- The address of the settings record. -/
def address : Nat := 0

/-- The settings that the chips hold, with the reports of reading them. -/
def fetch (bank : ChipBank) : Option Settings × List Report :=
  match bank.read address Settings.recordLength with
  | (.error _, reports) => (none, reports)
  | (.ok record, reports) => (Settings.ofRecord? record, reports)

/-- Take up the settings that the chips hold. -/
def load (bank : ChipBank) : SettingsStore × List Report :=
  let (settings, reports) := fetch bank
  (⟨bank, settings.getD .initial⟩, reports)

/-- Change the settings and store them. -/
def modify (change : Settings → Settings) (store : SettingsStore) :
    Except Failure Unit × List Report × SettingsStore :=
  let settings := change store.current
  match store.bank.write address settings.encode with
  | (result, reports, bank) => (result.mapError Failure.mk, reports, ⟨bank, settings⟩)

/-- The settings record on a chip. -/
def record (bank : ChipBank) (i : Fin 3) : Bytes := (bank.get i).stored address Settings.recordLength

/-- A chip works and is large enough for the settings record. -/
def working (bank : ChipBank) (i : Fin 3) : Bool := (bank.get i).accepts address Settings.recordLength

/-- Count a boot. -/
def registerBoot (store : SettingsStore) : List Report × SettingsStore :=
  (store.modify fun settings => { settings with bootIndex := settings.bootIndex + 1 }).2

variable {bank : ChipBank} {store : SettingsStore} {change : Settings → Settings} {i j : Fin 3}

/-- A chip that is large enough works exactly where it does not refuse accesses. -/
theorem working_of_size (hsize : Settings.recordLength ≤ (bank.get i).contents.length) :
    working bank i = !(bank.get i).failing := by
  rw [Bool.eq_iff_iff, working, Chip.accepts_iff, address, Nat.zero_add, Bool.not_eq_true']
  exact and_iff_left hsize

/-! ### Loading -/

@[simp]
theorem bank_load (bank : ChipBank) : (load bank).1.bank = bank := rfl

theorem current_load {bytes : Bytes} (h : (bank.read address Settings.recordLength).1 = .ok bytes) :
    (load bank).1.current = (Settings.ofRecord? bytes).getD .initial := by
  show (fetch bank).1.getD .initial = _
  unfold fetch
  generalize bank.read address Settings.recordLength = answer at h
  obtain ⟨result, reports⟩ := answer
  obtain rfl : result = .ok bytes := h
  rfl

/-- A record on two working chips is loaded. -/
theorem current_load_of_two (hij : i ≠ j) (hi : working bank i = true) (hj : working bank j = true)
    (hsame : record bank j = record bank i) :
    (load bank).1.current = (Settings.ofRecord? (record bank i)).getD .initial :=
  current_load (ChipBank.fst_read_of_two hij hi hj hsame)

/-- The record on the chip that alone decides is loaded. -/
theorem current_load_of_decidedBy (h : bank.DecidedBy i address Settings.recordLength) :
    (load bank).1.current = (Settings.ofRecord? (record bank i)).getD .initial :=
  current_load (ChipBank.fst_read_of_decidedBy h)

/-! ### Changing -/

/-- A change is stored exactly where two chips work. -/
theorem fst_modify_eq_ok_iff : (store.modify change).1 = .ok () ↔
    ∃ i j, i ≠ j ∧ working store.bank i = true ∧ working store.bank j = true := by
  have hwrite := ChipBank.fst_write address (change store.current).encode store.bank
  have hfew := Triple.count_le_one_iff (p := fun chip => !chip.accepts address Settings.recordLength) (t := store.bank)
  simp only [Bool.not_eq_false'] at hfew
  rw [Settings.length_encode] at hwrite
  unfold working
  rw [← hfew]
  show Except.mapError Failure.mk (store.bank.write address (change store.current).encode).1 = .ok () ↔ _
  rw [hwrite]
  split
  · rename_i hmany
    refine iff_of_false ?_ (Nat.not_le.2 hmany)
    intro h
    cases h
  · rename_i hfew
    exact iff_of_true rfl (Nat.not_lt.1 hfew)

theorem get_bank_modify (store : SettingsStore) (change : Settings → Settings) (i : Fin 3) :
    (store.modify change).2.2.bank.get i = ((store.bank.get i).write address (change store.current).encode).2 :=
  ChipBank.get_write _ _ _ _

/-- A change does not alter which chips work. -/
@[simp]
theorem working_modify : working (store.modify change).2.2.bank i = working store.bank i := by
  rw [Bool.eq_iff_iff, working, working, Chip.accepts_iff, Chip.accepts_iff, get_bank_modify, Chip.failing_write,
    Chip.length_contents_write]

/-- A change puts its settings on every working chip and leaves the others as they are. -/
theorem record_modify : record (store.modify change).2.2.bank i =
    if working store.bank i then (change store.current).encode else record store.bank i := by
  have h := Chip.stored_write address (change store.current).encode (store.bank.get i)
  rw [Settings.length_encode] at h
  rw [record, get_bank_modify, h]
  rfl

end SettingsStore

end Spacecraft
