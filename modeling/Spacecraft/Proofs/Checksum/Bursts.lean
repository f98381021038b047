import Mathlib.Algebra.Group.Nat.Defs
import Spacecraft.Proofs.Checksum.Linear

/-!
# Bursts are detected

Up to four bytes go through the register like one word added to it at once (`scan_eq_bitSteps`).  So the bytes of the
check bring the register of an accepted record to one fixed value, whatever the payload (`verify_eq_true_iff`), and
from then on payload and check need not be told apart: a change within four consecutive bytes adds a word that does not
vanish on its way through the rest of the record (`scan_window_injective`), so that the record is refused
(`detects_bursts`).
-/

namespace Spacecraft

namespace Checksum

/-! ### Bytes as a word -/

/-- A byte and a number above it are added without a carry. -/
private theorem ofNat_byte_add {byte : Nat} (hbyte : byte < 256) (above : Nat) :
    BitVec.ofNat 32 (byte + 256 * above) = BitVec.ofNat 32 byte ^^^ BitVec.ofNat 32 (256 * above) := by
  have hsplit : byte + 256 * above = byte ^^^ 256 * above := by
    apply Nat.eq_of_testBit_eq
    intro i
    rw [Nat.testBit_xor, Nat.add_comm, Nat.testBit_two_pow_mul_add above (i := 8) hbyte,
      Nat.testBit_two_pow_mul (i := 8) (a := above)]
    split
    · rename_i h
      simp [Nat.not_le.2 h]
    · rename_i h
      have hpow : 2 ^ 8 ≤ 2 ^ i := Nat.pow_le_pow_right (by decide) (Nat.not_lt.1 h)
      have hhigh : byte.testBit i = false := Nat.testBit_lt_two_pow (Nat.lt_of_lt_of_le hbyte hpow)
      simp [hhigh, Nat.not_lt.1 h]
  rw [hsplit, BitVec.ofNat_xor]

private theorem bitStep_double {n : Nat} (h : 2 * n < 2 ^ 32) :
    bitStep (BitVec.ofNat 32 (2 * n)) = BitVec.ofNat 32 n := by
  have hlow : (BitVec.ofNat 32 (2 * n)).getLsbD 0 = false := by
    rw [BitVec.getLsbD_ofNat, Nat.testBit_zero]
    simp
  rw [bitStep, hlow]
  apply BitVec.eq_of_toNat_eq
  show (BitVec.ofNat 32 (2 * n) >>> 1).toNat = (BitVec.ofNat 32 n).toNat
  rw [BitVec.toNat_ushiftRight, BitVec.toNat_ofNat, BitVec.toNat_ofNat, Nat.mod_eq_of_lt h, Nat.shiftRight_eq_div_pow]
  omega

/-- As long as no bit is shifted out, the steps only move the register down. -/
private theorem bitSteps_ofNat (k : Nat) {n : Nat} (h : 2 ^ k * n < 2 ^ 32) :
    bitSteps k (BitVec.ofNat 32 (2 ^ k * n)) = BitVec.ofNat 32 n := by
  induction k with
  | zero =>
    rw [Nat.pow_zero, Nat.one_mul]
    rfl
  | succ k ih =>
    have hdouble : 2 ^ (k + 1) * n = 2 * (2 ^ k * n) := by
      rw [Nat.pow_succ, Nat.mul_comm (2 ^ k), Nat.mul_assoc]
    rw [hdouble] at h ⊢
    rw [bitSteps, bitStep_double h, ih (by omega)]

private theorem decode_lt_two_pow {bytes : Bytes} (h : bytes.length ≤ 4) : LittleEndian.decode bytes < 2 ^ 32 :=
  Nat.lt_of_lt_of_le (LittleEndian.decode_lt bytes) (LittleEndian.capacity_le_capacity h)

/-- Up to four bytes take effect like one word that is added to the register before any step. -/
theorem scan_eq_bitSteps {bytes : Bytes} (h : bytes.length ≤ 4) (register : BitVec 32) :
    scan register bytes =
      bitSteps (8 * bytes.length) (register ^^^ BitVec.ofNat 32 (LittleEndian.decode bytes)) := by
  induction bytes generalizing register with
  | nil =>
    show register = register ^^^ 0#32
    rw [BitVec.xor_zero]
  | cons byte rest ih =>
    have hword : byte.toNat + 256 * LittleEndian.decode rest < 2 ^ 32 := decode_lt_two_pow h
    -- The later bytes take part from the start if they stand above this one.
    have hlater : BitVec.ofNat 32 (LittleEndian.decode rest) =
        bitSteps 8 (BitVec.ofNat 32 (256 * LittleEndian.decode rest)) :=
      (bitSteps_ofNat 8 (Nat.lt_of_le_of_lt (Nat.le_add_left _ _) hword)).symm
    have hbyte : byteStep register byte = bitSteps 8 (register ^^^ BitVec.ofNat 32 byte.toNat) :=
      congrArg (fun word => bitSteps 8 (register ^^^ word)) (BitVec.ofNat_toNat 32 byte.toBitVec).symm
    calc scan (byteStep register byte) rest
        = bitSteps (8 * rest.length) (byteStep register byte ^^^ BitVec.ofNat 32 (LittleEndian.decode rest)) :=
          ih (Nat.le_of_succ_le h) _
      _ = bitSteps (8 * rest.length) (bitSteps 8 (register ^^^
            BitVec.ofNat 32 (byte.toNat + 256 * LittleEndian.decode rest))) := by
          rw [hbyte, hlater, ← bitSteps_xor, BitVec.xor_assoc, ← ofNat_byte_add byte.toNat_lt]
      _ = bitSteps (8 * (rest.length + 1)) (register ^^^
            BitVec.ofNat 32 (byte.toNat + 256 * LittleEndian.decode rest)) := by
          rw [← bitSteps_add, Nat.mul_succ, Nat.add_comm]

/-! ### The register at the end of a record -/

/-- The register after an accepted record, whatever the record. -/
def residue : BitVec 32 := bitSteps 32 (BitVec.allOnes 32)

private theorem scan_append (register : BitVec 32) (front back : Bytes) :
    scan register (front ++ back) = scan (scan register front) back :=
  List.foldl_append

private theorem payload_append_check (record : Bytes) :
    payload record ++ record.drop (record.length - width) = record :=
  List.take_append_drop _ record

private theorem xor_eq_allOnes_iff (a b : BitVec 32) : a ^^^ b = BitVec.allOnes 32 ↔ ~~~a = b := by
  rw [← BitVec.xor_right_inj a, ← BitVec.xor_assoc, BitVec.xor_self, BitVec.zero_xor, BitVec.xor_allOnes]
  exact eq_comm

/-- The check of a payload is the word that takes the register to the residue. -/
theorem verify_eq_true_iff (record : Bytes) :
    verify record = true ↔ width < record.length ∧ scan (BitVec.allOnes 32) record = residue := by
  rw [verify, Bool.and_eq_true, decide_eq_true_eq, decide_eq_true_eq]
  refine and_congr_right fun hlength => ?_
  have hcheck : (record.drop (record.length - width)).length = 4 := by
    rw [List.length_drop, Nat.sub_sub_self (Nat.le_of_lt hlength), width]
  have hstored : stored record < 2 ^ 32 := decode_lt_two_pow (Nat.le_of_eq hcheck)
  have hscan : scan (BitVec.allOnes 32) record =
      bitSteps 32 (scan (BitVec.allOnes 32) (payload record) ^^^ BitVec.ofNat 32 (stored record)) := by
    conv => lhs; rw [← payload_append_check record]
    rw [scan_append, scan_eq_bitSteps (Nat.le_of_eq hcheck), hcheck, stored]
  calc (compute (payload record)).toNat = stored record
      ↔ compute (payload record) = BitVec.ofNat 32 (stored record) := by
        rw [BitVec.toNat_eq, BitVec.toNat_ofNat, Nat.mod_eq_of_lt hstored]
    _ ↔ scan (BitVec.allOnes 32) (payload record) ^^^ BitVec.ofNat 32 (stored record) = BitVec.allOnes 32 :=
        (xor_eq_allOnes_iff _ _).symm
    _ ↔ scan (BitVec.allOnes 32) record = residue := by
        rw [hscan, residue]
        exact ⟨congrArg (bitSteps 32), bitSteps_injective 32⟩

example : residue = 0xDEBB20E3#32 := by decide +kernel

/-- Of two strings of up to four bytes that differ, the register never comes out the same, whatever follows them. -/
theorem scan_window_injective {front window window' back : Bytes} {register : BitVec 32} (hlength : window.length ≤ 4)
    (hsame : window'.length = window.length)
    (h : scan register (front ++ (window' ++ back)) = scan register (front ++ (window ++ back))) : window' = window := by
  rw [scan_append, scan_append, scan_append, scan_append] at h
  -- What follows keeps registers apart, and so do the steps of the window itself.
  have hwindow := scan_injective h
  rw [scan_eq_bitSteps hlength, scan_eq_bitSteps (hsame ▸ hlength), hsame] at hwindow
  have hword : (BitVec.ofNat 32 (LittleEndian.decode window')).toNat =
      (BitVec.ofNat 32 (LittleEndian.decode window)).toNat :=
    congrArg BitVec.toNat ((BitVec.xor_right_inj _).1 (bitSteps_injective _ hwindow))
  rw [BitVec.toNat_ofNat, BitVec.toNat_ofNat, Nat.mod_eq_of_lt (decode_lt_two_pow hlength),
    Nat.mod_eq_of_lt (decode_lt_two_pow (hsame ▸ hlength))] at hword
  exact LittleEndian.decode_injective hsame hword

/-! ### Bursts -/

/-- Strings that agree outside a window are made of the same bytes around it. -/
private theorem take_drop_of_agree {record received : Bytes} {start length : Nat}
    (hagree : ∀ i, i < start ∨ start + length ≤ i → received[i]? = record[i]?) :
    received.take start = record.take start ∧ received.drop (start + length) = record.drop (start + length) := by
  constructor
  · apply List.ext_getElem?
    intro i
    rw [List.getElem?_take, List.getElem?_take]
    split
    · rename_i h
      exact hagree i (Or.inl h)
    · rfl
  · apply List.ext_getElem?
    intro i
    rw [List.getElem?_drop, List.getElem?_drop]
    exact hagree _ (Or.inr (Nat.le_add_right _ _))

/-- A string as what stands before, in and after a window. -/
private theorem take_append_window (record : Bytes) (start length : Nat) :
    record.take start ++ ((record.drop start).take length ++ record.drop (start + length)) = record := by
  rw [← List.drop_drop, List.take_append_drop, List.take_append_drop]

/-- A payload that is not empty makes an accepted record with its check, and no record is accepted that differs from
an accepted one of the same length within four consecutive bytes only, be they of the payload, of the check or of
both. -/
theorem detects_bursts :
    (∀ payload : Bytes, payload ≠ [] → verify (payload ++ LittleEndian.encode 4 (compute payload).toNat) = true) ∧
    ∀ (record received : Bytes) (start : Nat), verify record = true → received.length = record.length →
      (∀ i, i < start ∨ start + 4 ≤ i → received[i]? = record[i]?) → received ≠ record → verify received = false := by
  refine ⟨fun payload hpayload => verify_sealed hpayload, ?_⟩
  intro record received start haccepted hlength hagree hne
  obtain ⟨hbefore, hafter⟩ := take_drop_of_agree hagree
  rw [Bool.eq_false_iff]
  intro hreceived
  have hregister : scan (BitVec.allOnes 32) received = scan (BitVec.allOnes 32) record :=
    ((verify_eq_true_iff received).1 hreceived).2.trans ((verify_eq_true_iff record).1 haccepted).2.symm
  rw [← take_append_window record start 4, ← take_append_window received start 4, hbefore, hafter] at hregister
  have hwindow := scan_window_injective (List.length_take_le 4 _) (by simp [hlength]) hregister
  apply hne
  rw [← take_append_window record start 4, ← take_append_window received start 4, hbefore, hafter, hwindow]

theorem detects_bursts_across_the_check :
    let record : Bytes := [0x31, 0x32, 0x33, 0x34, 0x35, 0x36, 0x37, 0x38, 0x39, 0x26, 0x39, 0xF4, 0xCB]
    let received : Bytes := [0x31, 0x32, 0x33, 0x34, 0x35, 0x36, 0x37, 0x39, 0x38, 0x00, 0x00, 0xF4, 0xCB]
    verify record = true ∧ verify received = false := by
  intro record received
  have haccepted : verify record = true := by decide +kernel
  have hagree : ∀ i, i < 7 ∨ 7 + 4 ≤ i → received[i]? = record[i]? := by
    have hinside : ∀ i < 13, i < 7 ∨ 7 + 4 ≤ i → received[i]? = record[i]? := by decide
    intro i hi
    rcases Nat.lt_or_ge i 13 with hlt | hge
    · exact hinside i hlt hi
    · rw [List.getElem?_eq_none (l := received) hge, List.getElem?_eq_none (l := record) hge]
  exact ⟨haccepted, detects_bursts.2 record received 7 haccepted rfl hagree (by decide)⟩

end Checksum

end Spacecraft
