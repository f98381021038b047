import Spacecraft.Fault.Counters
import Spacecraft.Redundancy.Chip
import Spacecraft.Redundancy.Triple

/-!
# Three chips as one memory

Every access goes to all three chips and yields one report per chip.  Reading votes byte by byte among the chips that
answered; writing fails once more than one chip refused, because the next read could then be outvoted.
-/

namespace Spacecraft

/-- Three chips that hold the same data. -/
abbrev ChipBank := Triple Chip

namespace ChipBank

/-- Why an access to the bank failed. -/
inductive Failure where
  | readFailed
  | writeFailed (chips : Nat)
deriving DecidableEq, Repr

/-- The short name of a failure. -/
def Failure.kind : Failure → String
  | .readFailed => "ReadFailed"
  | .writeFailed _ => "WriteFailed"

/-- The words in which a failure is reported. -/
def Failure.message : Failure → String
  | .readFailed => "read failed on every FRAM chip"
  | .writeFailed chips => s!"write failed on {chips} of 3 FRAM chips"

/-- The devices under which the chips are supervised. -/
def devices : Triple Device := ⟨.fram0, .fram1, .fram2⟩

/-- Three blank chips. -/
def blank (size : Nat) : ChipBank := Triple.replicate (Chip.blank size)

/-- The byte that three copies vote for: the majority if all are present, else the first that is. -/
def voteByte (copies : Triple (Option UInt8)) : Option UInt8 :=
  match copies with
  | ⟨some a, some b, some c⟩ => some (Triple.majority? ⟨a, b, c⟩ |>.getD a)
  | ⟨a, b, c⟩ => a <|> b <|> c

/-- The bytes that three copies of a string of bytes vote for. -/
def vote (length : Nat) (copies : Triple (Option Bytes)) : Bytes :=
  (List.range length).map fun i =>
    (voteByte (copies.map fun copy => copy.bind fun bytes => bytes[i]?)).getD 0

/-- One report per chip. -/
def reports (accepted : Triple Bool) : List Report :=
  (Triple.zipWith (fun device healthy => (⟨device, healthy⟩ : Report)) devices accepted).toList

/-- The bytes at an address, together with the report of every chip. -/
def read (address length : Nat) (bank : ChipBank) : Except Failure Bytes × List Report :=
  let copies := bank.map fun chip => (chip.read address length).toOption
  let result :=
    if copies.toList.all Option.isNone then .error .readFailed else .ok (vote length copies)
  (result, reports (copies.map Option.isSome))

/-- Store bytes at an address on every chip. -/
def write (address : Nat) (bytes : Bytes) (bank : ChipBank) : Except Failure Unit × List Report × ChipBank :=
  let outcomes := bank.map (Chip.write address bytes)
  let accepted := outcomes.map fun outcome => outcome.1.toBool
  let failed := accepted.count (fun healthy => !healthy)
  let result := if 1 < failed then .error (.writeFailed failed) else .ok ()
  (result, reports accepted, outcomes.map Prod.snd)

/-- What the chips answer to a read. -/
def answers (address length : Nat) (bank : ChipBank) : Triple (Option Bytes) :=
  bank.map fun chip => (chip.read address length).toOption

/-- A chip alone decides what is read at an address: some chip refuses, and this one is the first that does not. -/
def DecidedBy (i : Fin 3) (address length : Nat) (bank : ChipBank) : Prop :=
  (∃ j, (bank.get j).accepts address length = false) ∧ (bank.get i).accepts address length = true ∧
    ∀ j < i, (bank.get j).accepts address length = false

instance (i : Fin 3) (address length : Nat) (bank : ChipBank) : Decidable (bank.DecidedBy i address length) :=
  inferInstanceAs (Decidable (_ ∧ _))

/-! ### Votes -/

/-- A byte that two copies hold wins. -/
theorem voteByte_of_two {copies : Triple (Option UInt8)} {byte : UInt8} {i j : Fin 3} (hij : i ≠ j)
    (hi : copies.get i = some byte) (hj : copies.get j = some byte) : voteByte copies = some byte := by
  obtain ⟨a, b, c⟩ := copies
  rcases Triple.index_cases i with rfl | rfl | rfl <;> rcases Triple.index_cases j with rfl | rfl | rfl <;>
    cases a <;> cases b <;> cases c <;> simp_all [Triple.get, voteByte, Triple.majority?]

/-- Where a copy is missing, the byte of the first copy that is not missing wins. -/
theorem voteByte_of_missing {copies : Triple (Option UInt8)} {byte : UInt8} {i j : Fin 3}
    (hj : copies.get j = none) (hi : copies.get i = some byte) (hfirst : ∀ k < i, copies.get k = none) :
    voteByte copies = some byte := by
  obtain ⟨a, b, c⟩ := copies
  rcases Triple.index_cases i with rfl | rfl | rfl <;> rcases Triple.index_cases j with rfl | rfl | rfl <;>
    cases a <;> cases b <;> cases c <;> simp_all [Triple.get, voteByte, Fin.forall_fin_succ]

/-- A vote that every byte of a string wins yields the string. -/
theorem vote_eq_of_voteByte {copies : Triple (Option Bytes)} {bytes : Bytes}
    (h : ∀ (k : Nat) (byte : UInt8), bytes[k]? = some byte →
      voteByte (copies.map fun copy => copy.bind fun bytes => bytes[k]?) = some byte) :
    vote bytes.length copies = bytes := by
  apply List.ext_getElem
  · simp [vote]
  · intro k _ hk
    simp [vote, h k bytes[k] (List.getElem?_eq_getElem hk)]

/-- A string that two copies hold wins. -/
private theorem vote_of_two {copies : Triple (Option Bytes)} {bytes : Bytes} {i j : Fin 3} (hij : i ≠ j)
    (hi : copies.get i = some bytes) (hj : copies.get j = some bytes) : vote bytes.length copies = bytes := by
  apply vote_eq_of_voteByte
  intro k byte hbyte
  apply voteByte_of_two hij
  · rw [Triple.get_map, hi]
    exact hbyte
  · rw [Triple.get_map, hj]
    exact hbyte

/-- Where a copy is missing, the first copy that is not missing wins. -/
private theorem vote_of_missing {copies : Triple (Option Bytes)} {bytes : Bytes} {i j : Fin 3}
    (hj : copies.get j = none) (hi : copies.get i = some bytes) (hfirst : ∀ k < i, copies.get k = none) :
    vote bytes.length copies = bytes := by
  apply vote_eq_of_voteByte
  intro k byte hbyte
  apply voteByte_of_missing (i := i) (j := j)
  · rw [Triple.get_map, hj]
    rfl
  · rw [Triple.get_map, hi]
    exact hbyte
  · intro l hl
    rw [Triple.get_map, hfirst l hl]
    rfl

/-! ### Accesses -/

variable {address length : Nat} {bank : ChipBank} {i j : Fin 3}

private theorem get_answers (bank : ChipBank) (address length : Nat) (i : Fin 3) :
    (bank.answers address length).get i =
      if (bank.get i).accepts address length then some ((bank.get i).stored address length) else none := by
  rw [answers, Triple.get_map, Chip.toOption_read]

theorem get_answers_of_accepts (hi : (bank.get i).accepts address length = true) :
    (bank.answers address length).get i = some ((bank.get i).stored address length) := by
  rw [get_answers, if_pos hi]

theorem get_answers_of_refuses (hi : (bank.get i).accepts address length = false) :
    (bank.answers address length).get i = none := by
  rw [get_answers, hi, if_neg Bool.false_ne_true]

/-- With a chip that accepts the read, the vote of the answers is read. -/
theorem fst_read (hi : (bank.get i).accepts address length = true) :
    (bank.read address length).1 = .ok (vote length (bank.answers address length)) := by
  have hsome : (bank.answers address length).toList.all Option.isNone = false := by
    rw [List.all_eq_false]
    refine ⟨_, Triple.get_mem_toList _ i, ?_⟩
    rw [get_answers_of_accepts hi]
    exact Bool.false_ne_true
  show (if (bank.answers address length).toList.all Option.isNone then _ else _) = _
  rw [hsome]
  exact if_neg Bool.false_ne_true

/-- What two chips that accept the read agree on is read. -/
theorem fst_read_of_two (hij : i ≠ j) (hi : (bank.get i).accepts address length = true)
    (hj : (bank.get j).accepts address length = true)
    (hsame : (bank.get j).stored address length = (bank.get i).stored address length) :
    (bank.read address length).1 = .ok ((bank.get i).stored address length) := by
  have hvote := vote_of_two hij (get_answers_of_accepts hi) (hsame ▸ get_answers_of_accepts hj)
  rw [Chip.length_stored (Chip.accepts_iff.1 hi).2] at hvote
  rw [fst_read hi, hvote]

/-- What the chip stores that alone decides is read. -/
theorem fst_read_of_decidedBy (h : bank.DecidedBy i address length) :
    (bank.read address length).1 = .ok ((bank.get i).stored address length) := by
  obtain ⟨⟨j, hj⟩, hi, hfirst⟩ := h
  have hvote := vote_of_missing (get_answers_of_refuses hj) (get_answers_of_accepts hi)
    fun k hk => get_answers_of_refuses (hfirst k hk)
  rw [Chip.length_stored (Chip.accepts_iff.1 hi).2] at hvote
  rw [fst_read hi, hvote]

/-- A write fails where more than one chip refuses it. -/
theorem fst_write (address : Nat) (bytes : Bytes) (bank : ChipBank) :
    let refusing := bank.count fun chip => !chip.accepts address bytes.length
    (bank.write address bytes).1 = if 1 < refusing then .error (.writeFailed refusing) else .ok () := by
  have hcount : ((bank.map (Chip.write address bytes)).map fun outcome => outcome.1.toBool).count
      (fun accepted => !accepted) = bank.count fun chip => !chip.accepts address bytes.length := by
    simp only [Triple.count_map, Chip.toBool_write]
  simp only [write, hcount]

/-- Every chip takes part in a write for itself. -/
theorem get_write (address : Nat) (bytes : Bytes) (bank : ChipBank) (i : Fin 3) :
    (bank.write address bytes).2.2.get i = ((bank.get i).write address bytes).2 := by
  rw [write, Triple.get_map, Triple.get_map]

end ChipBank

end Spacecraft
