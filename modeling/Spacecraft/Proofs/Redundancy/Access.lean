import Mathlib.Logic.Basic
import Spacecraft.Redundancy.ChipBank

/-!
# Reading and writing three chips

A read and a write go to all three chips.  What is read at a place is the byte that two of the answering chips hold
there, or that of the only one that answers (`voted_read`).  What is written replaces the addressed bytes of every chip
that takes the write and nothing else (`replaced_write`).  Either way each chip makes one report of its own
(`reports_read`, `reports_write`), so that its counter moves by its own result, whatever becomes of the access
(`Reported.counted`).
-/

namespace Spacecraft

namespace Chip

/-- The chip as it is after bytes were stored at an address: those bytes there, all others as they were. -/
structure Replaced (address : Nat) (bytes : Bytes) (chip next : Chip) : Prop where
  contents (place : Nat) : next.contents[place]? =
    if address ≤ place ∧ place < address + bytes.length then bytes[place - address]? else chip.contents[place]?
  failing : next.failing = chip.failing

end Chip

namespace ChipBank

/-- What the chips that answer a read hold has been voted on, byte by byte: two equal bytes win, and an only answer is
taken as it is. -/
structure Voted (address length : Nat) (bank : ChipBank) (bytes : Bytes) : Prop where
  size : bytes.length = length
  agreed {k : Nat} {byte : UInt8} {i j : Fin 3} (hk : k < length) (hne : i ≠ j)
    (hi : ((bank.get i).read address length).toBool = true) (hj : ((bank.get j).read address length).toBool = true)
    (hbyte : (bank.get i).contents[address + k]? = some byte)
    (hsame : (bank.get j).contents[address + k]? = some byte) : bytes[k]? = some byte
  alone {k : Nat} {i : Fin 3} (hk : k < length) (hi : ((bank.get i).read address length).toBool = true)
    (hothers : ∀ j ≠ i, ((bank.get j).read address length).toBool = false) :
    bytes[k]? = (bank.get i).contents[address + k]?

/-- Each chip made one report, of its own result. -/
def Reported (healthy : Fin 3 → Bool) (reports : List Report) : Prop :=
  reports = [⟨.fram0, healthy 0⟩, ⟨.fram1, healthy 1⟩, ⟨.fram2, healthy 2⟩]

/-- The counter of each chip moved once, by its own result, and no other counter moved. -/
structure Counted (healthy : Fin 3 → Bool) (counters next : Counters) : Prop where
  own (i : Fin 3) : next.get (devices.get i) = (counters.get (devices.get i)).report (healthy i)
  others (device : Device) (h : ∀ i, device ≠ devices.get i) : next.get device = counters.get device

variable {address length : Nat} {bank : ChipBank}

/-! ### Reading -/

private theorem getElem?_vote {copies : Triple (Option Bytes)} {k : Nat} (hk : k < length) :
    (vote length copies)[k]? =
      some ((voteByte (copies.map fun copy => copy.bind fun bytes => bytes[k]?)).getD 0) := by
  rw [vote, List.getElem?_map, List.getElem?_range hk]
  rfl

/-- At a place inside the access, the byte of a chip that answers. -/
private theorem get_answers_byte {i : Fin 3} {k : Nat} (hk : k < length)
    (hi : (bank.get i).accepts address length = true) :
    ((bank.answers address length).map fun copy => copy.bind fun bytes => bytes[k]?).get i =
      (bank.get i).contents[address + k]? := by
  rw [Triple.get_map, get_answers_of_accepts hi]
  exact Chip.getElem?_stored hk

theorem voted_read {i : Fin 3} (hi : (bank.get i).accepts address length = true) :
    ∃ bytes, (bank.read address length).1 = .ok bytes ∧ bank.Voted address length bytes := by
  refine ⟨_, fst_read hi, ?_, ?_, ?_⟩
  · rw [vote, List.length_map, List.length_range]
  · intro k byte i j hk hne hi hj hbyte hsame
    rw [Chip.toBool_read] at hi hj
    rw [getElem?_vote hk, voteByte_of_two hne ((get_answers_byte hk hi).trans hbyte)
      ((get_answers_byte hk hj).trans hsame)]
    rfl
  · intro k i hk hi hothers
    simp only [Chip.toBool_read] at hi hothers
    obtain ⟨j, -, -, hj, -⟩ := Triple.exists_two_others i
    have hsilent (m : Fin 3) (hm : m ≠ i) :
        ((bank.answers address length).map fun copy => copy.bind fun bytes => bytes[k]?).get m = none := by
      rw [Triple.get_map, get_answers_of_refuses (hothers m hm)]
      rfl
    have hplace : address + k < (bank.get i).contents.length := by
      have hfit := (Chip.accepts_iff.1 hi).2
      omega
    have hbyte := (get_answers_byte hk hi).trans (List.getElem?_eq_getElem hplace)
    rw [getElem?_vote hk, voteByte_of_missing (hsilent j hj) hbyte fun m hm => hsilent m (Fin.ne_of_lt hm),
      List.getElem?_eq_getElem hplace]
    rfl

private theorem read_fails_iff : (bank.read address length).1 = .error .readFailed ↔
    ∀ i, ((bank.get i).read address length).toBool = false := by
  simp only [Chip.toBool_read]
  constructor
  · intro hfails i
    cases hi : (bank.get i).accepts address length with
    | false => rfl
    | true =>
      rw [fst_read hi] at hfails
      cases hfails
  · intro hrefuse
    have hall : (bank.answers address length).toList.all Option.isNone = true := by
      have h0 := get_answers_of_refuses (hrefuse 0)
      have h1 := get_answers_of_refuses (hrefuse 1)
      have h2 := get_answers_of_refuses (hrefuse 2)
      simp only [Triple.get] at h0 h1 h2
      simp [Triple.toList, h0, h1, h2]
    show (if (bank.answers address length).toList.all Option.isNone then _ else _) = _
    rw [if_pos hall]

theorem reports_read (bank : ChipBank) (address length : Nat) :
    Reported (fun i => ((bank.get i).read address length).toBool) (bank.read address length).2 := by
  have hsome (chip : Chip) :
      (chip.read address length).toOption.isSome = (chip.read address length).toBool := by
    cases chip.read address length <;> rfl
  simp only [Reported, ← hsome]
  rfl

/-! ### Writing -/

theorem replaced_write {chip : Chip} {bytes : Bytes} (h : (chip.write address bytes).1.toBool = true) :
    chip.Replaced address bytes (chip.write address bytes).2 := by
  rw [Chip.toBool_write] at h
  have hfit := (Chip.accepts_iff.1 h).2
  rw [Chip.write_of_accepts h]
  exact ⟨fun place => Chip.getElem?_overlay hfit place, rfl⟩

section

variable (bank : ChipBank) (address : Nat) (bytes : Bytes)

private theorem write_fails_iff (n : Nat) : (bank.write address bytes).1 = .error (.writeFailed n) ↔
    (bank.count fun chip => !(chip.write address bytes).1.toBool) = n ∧ 2 ≤ n := by
  have hresult := fst_write address bytes bank
  simp only [Chip.toBool_write]
  simp only at hresult
  rw [hresult]
  split
  · rename_i h
    rw [Except.error.injEq, Failure.writeFailed.injEq]
    exact ⟨fun heq => ⟨heq, heq ▸ h⟩, fun heq => heq.1⟩
  · rename_i h
    exact iff_of_false nofun fun heq => h (heq.1.symm ▸ heq.2)

private theorem write_succeeds_iff : (bank.write address bytes).1 = .ok () ↔
    (bank.count fun chip => !(chip.write address bytes).1.toBool) ≤ 1 := by
  have hresult := fst_write address bytes bank
  simp only [Chip.toBool_write]
  simp only at hresult
  rw [hresult]
  split
  · rename_i h
    exact iff_of_false nofun (Nat.not_le.2 h)
  · rename_i h
    exact iff_of_true rfl (Nat.not_lt.1 h)

end

theorem reports_write (bank : ChipBank) (address : Nat) (bytes : Bytes) :
    Reported (fun i => ((bank.get i).write address bytes).1.toBool) (bank.write address bytes).2.1 := rfl

/-! ### Counters -/

theorem Reported.counted {healthy : Fin 3 → Bool} {reports : List Report} (h : Reported healthy reports)
    (counters : Counters) : Counted healthy counters (counters.reportAll reports).2 := by
  obtain rfl := h
  have hthree (device : Device) :
      (counters.reportAll [⟨.fram0, healthy 0⟩, ⟨.fram1, healthy 1⟩, ⟨.fram2, healthy 2⟩]).2.get device =
        ((((counters.report ⟨.fram0, healthy 0⟩).2).report ⟨.fram1, healthy 1⟩).2.report ⟨.fram2, healthy 2⟩).2.get
          device := rfl
  constructor
  · intro i
    rw [hthree]
    rcases Triple.index_cases i with rfl | rfl | rfl <;> simp [devices, Triple.get, Counters.get_report]
  · intro device h
    have h0 := h 0
    have h1 := h 1
    have h2 := h 2
    simp only [devices, Triple.get] at h0 h1 h2
    rw [hthree, Counters.get_report, if_neg h2, Counters.get_report, if_neg h1, Counters.get_report, if_neg h0]

/-- Any access to three chips, of whatever contents and with any of them failing.  A chip answers a read, or takes a
write, where it is in order and the access ends inside it.  A read fails exactly where no chip answers, and else yields
what the answering chips have been voted to hold.  A write replaces the addressed bytes of each chip that takes it and
leaves the others as they are; it fails exactly where two chips or more do not take it, and tells how many.  Either way
each chip makes one report, of its own result, and the counter of each has moved by that. -/
theorem accesses_every_chip (bank : ChipBank) (address : Nat) (counters : Counters) :
    (∀ length,
      let answers i := ((bank.get i).read address length).toBool
      let (result, reports) := bank.read address length
      (∀ i, answers i = true ↔ (bank.get i).failing = false ∧ address + length ≤ (bank.get i).contents.length) ∧
      (result = .error .readFailed ↔ ∀ i, answers i = false) ∧
      ((∀ i, answers i = false) ∨ ∃ bytes, result = .ok bytes ∧ bank.Voted address length bytes) ∧
      Reported answers reports ∧ Counted answers counters (counters.reportAll reports).2) ∧
    ∀ bytes,
      let takes i := ((bank.get i).write address bytes).1.toBool
      let failing := bank.count fun chip => !(chip.write address bytes).1.toBool
      let (result, reports, next) := bank.write address bytes
      (∀ i, takes i = true ↔ (bank.get i).failing = false ∧ address + bytes.length ≤ (bank.get i).contents.length) ∧
      (∀ i, if takes i then (bank.get i).Replaced address bytes (next.get i) else next.get i = bank.get i) ∧
      (∀ n, result = .error (.writeFailed n) ↔ failing = n ∧ 2 ≤ n) ∧ (result = .ok () ↔ failing ≤ 1) ∧
      Reported takes reports ∧ Counted takes counters (counters.reportAll reports).2 := by
  refine ⟨fun length => ?_, fun bytes => ?_⟩
  · intro answers
    have hreports := reports_read bank address length
    have hanswers (i : Fin 3) : answers i = (bank.get i).accepts address length := Chip.toBool_read
    refine ⟨fun i => (hanswers i).symm ▸ Chip.accepts_iff, read_fails_iff, ?_, hreports, hreports.counted counters⟩
    by_cases h : ∀ i, answers i = false
    · exact Or.inl h
    · obtain ⟨i, hi⟩ := not_forall.1 h
      rw [Bool.not_eq_false] at hi
      exact Or.inr (voted_read ((hanswers i).symm.trans hi))
  · intro takes failing
    have hreports := reports_write bank address bytes
    have htakes (i : Fin 3) : takes i = (bank.get i).accepts address bytes.length := Chip.toBool_write
    refine ⟨fun i => (htakes i).symm ▸ Chip.accepts_iff, fun i => ?_, fun n => write_fails_iff bank address bytes n,
      write_succeeds_iff bank address bytes, hreports, hreports.counted counters⟩
    show if takes i then (bank.get i).Replaced address bytes ((bank.write address bytes).2.2.get i)
      else (bank.write address bytes).2.2.get i = bank.get i
    rw [get_write]
    cases hi : takes i with
    | true => exact replaced_write hi
    | false => exact Chip.snd_write_of_not_accepts ((htakes i).symm.trans hi)

end ChipBank

end Spacecraft
