import Spacecraft.Checksum

/-!
# The check is linear

Division of the register by the polynomial goes through exclusive or (`bitStep_xor`) and loses nothing
(`bitSteps_injective`).  So what is added to the register, or to a byte on its way in, goes through the remaining steps
by itself (`scan_xor`, `compute_xor_byte`), and it never vanishes.
-/

namespace Spacecraft

namespace Checksum

theorem bitStep_xor (a b : BitVec 32) : bitStep (a ^^^ b) = bitStep a ^^^ bitStep b := by
  unfold bitStep
  rw [BitVec.getLsbD_xor, BitVec.ushiftRight_xor_distrib]
  cases a.getLsbD 0 with
  | false =>
    cases b.getLsbD 0 with
    | false => rfl
    | true => exact BitVec.xor_assoc _ _ _
  | true =>
    cases b.getLsbD 0 with
    | false =>
      show (a >>> 1 ^^^ b >>> 1) ^^^ polynomial = (a >>> 1 ^^^ polynomial) ^^^ b >>> 1
      rw [BitVec.xor_assoc, BitVec.xor_comm (b >>> 1), BitVec.xor_assoc]
    | true =>
      show a >>> 1 ^^^ b >>> 1 = (a >>> 1 ^^^ polynomial) ^^^ (b >>> 1 ^^^ polynomial)
      rw [BitVec.xor_assoc, BitVec.xor_comm (b >>> 1), ← BitVec.xor_assoc polynomial, BitVec.xor_self,
        BitVec.zero_xor]

theorem bitSteps_xor (n : Nat) (a b : BitVec 32) : bitSteps n (a ^^^ b) = bitSteps n a ^^^ bitSteps n b := by
  induction n generalizing a b with
  | zero => rfl
  | succ n ih => rw [bitSteps, bitSteps, bitSteps, bitStep_xor, ih]

theorem bitSteps_add (m n : Nat) (a : BitVec 32) : bitSteps (m + n) a = bitSteps n (bitSteps m a) := by
  induction m generalizing a with
  | zero => rw [Nat.zero_add, bitSteps]
  | succ m ih => rw [Nat.succ_add, bitSteps, bitSteps, ih]

/-- What is added to the register goes through the steps by itself. -/
theorem scan_xor (register difference : BitVec 32) (bytes : Bytes) :
    scan (register ^^^ difference) bytes = scan register bytes ^^^ bitSteps (8 * bytes.length) difference := by
  induction bytes generalizing register difference with
  | nil => rfl
  | cons byte rest ih =>
    have hstep : byteStep (register ^^^ difference) byte = byteStep register byte ^^^ bitSteps 8 difference := by
      rw [byteStep, byteStep, ← bitSteps_xor]
      congr 1
      grind
    rw [scan, List.foldl_cons, hstep, ← scan, ih, List.length_cons, Nat.mul_succ, Nat.add_comm, bitSteps_add]
    rfl

theorem compute_xor_byte (before after : Bytes) (byte difference : UInt8) :
    compute (before ++ (byte ^^^ difference) :: after) =
      compute (before ++ byte :: after) ^^^
        bitSteps (8 * (after.length + 1)) (difference.toBitVec.setWidth 32) := by
  have hstep (register : BitVec 32) :
      byteStep register (byte ^^^ difference) =
        byteStep register byte ^^^ bitSteps 8 (difference.toBitVec.setWidth 32) := by
    rw [byteStep, byteStep, UInt8.toBitVec_xor, BitVec.setWidth_xor, ← BitVec.xor_assoc, bitSteps_xor]
  rw [compute, compute, scan, scan, List.foldl_append, List.foldl_append, List.foldl_cons, List.foldl_cons, hstep,
    ← scan, scan_xor, Nat.mul_succ, Nat.add_comm, bitSteps_add]
  exact BitVec.not_xor_left

/-! ### Nothing is lost -/

/-- The polynomial has its highest bit set, which a shifted register never has. -/
private theorem bitStep_eq_zero {a : BitVec 32} (h : bitStep a = 0#32) : a = 0#32 := by
  unfold bitStep at h
  split at h
  · have hhigh : (a >>> 1).getLsbD 31 = polynomial.getLsbD 31 :=
      congrArg (fun register => register.getLsbD 31) (BitVec.xor_eq_zero_iff.1 h)
    rw [BitVec.getLsbD_ushiftRight, BitVec.getLsbD_of_ge a (1 + 31) (Nat.le_refl 32)] at hhigh
    exact absurd hhigh (by decide)
  · rename_i hlow
    apply BitVec.eq_of_getLsbD_eq
    intro i _
    cases i with
    | zero => simpa using hlow
    | succ i =>
      have hbit : (a >>> 1).getLsbD i = (0#32).getLsbD i := congrArg (fun register => register.getLsbD i) h
      rw [BitVec.getLsbD_ushiftRight, Nat.add_comm] at hbit
      simpa using hbit

private theorem bitSteps_eq_zero {n : Nat} {a : BitVec 32} (h : bitSteps n a = 0#32) : a = 0#32 := by
  induction n generalizing a with
  | zero => exact h
  | succ n ih => exact bitStep_eq_zero (ih h)

theorem bitSteps_injective (n : Nat) {a b : BitVec 32} (h : bitSteps n a = bitSteps n b) : a = b := by
  have hdifference : bitSteps n (a ^^^ b) = 0#32 := by
    rw [bitSteps_xor, h, BitVec.xor_self]
  exact BitVec.xor_eq_zero_iff.1 (bitSteps_eq_zero hdifference)

/-- Registers that differ still do after any bytes. -/
theorem scan_injective {a b : BitVec 32} {bytes : Bytes} (h : scan a bytes = scan b bytes) : a = b := by
  induction bytes generalizing a b with
  | nil => exact h
  | cons byte rest ih => exact (BitVec.xor_left_inj _).1 (bitSteps_injective 8 (ih h))

end Checksum

end Spacecraft
