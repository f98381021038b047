import Spacecraft.Proofs.Checksum.Linear
import Spacecraft.Redundancy.ChipBank
import Spacecraft.Settings.Record

/-!
# Votes of records that differ in the antennas

The check is linear (`Checksum.compute_xor_byte`), and every antenna bit of the mask changes all four bytes of the check
of a record, in whatever company.  So where two records differ in antennas only, they agree on no byte of which the third
could be outvoted: the vote of three such records goes to the first one as a whole, unless the others are the same
(`vote_encode_of_antennas`).
-/

namespace Spacecraft

/-- The first of three bytes wins unless the others agree. -/
private theorem ChipBank.voteByte_eq_ite (a b c : UInt8) :
    voteByte ⟨some a, some b, some c⟩ = some (if b = c then b else a) := by
  simp only [voteByte, Triple.majority?]
  grind

/-! ### Bytes of a number -/

namespace LittleEndian

/-- Numbers that differ in all four bytes have no byte in common. -/
private theorem getElem?_encode_ne {a b : BitVec 32} {j : Nat} (hj : j < 4)
    (h : ((a ^^^ b) >>> (8 * j)).setWidth 8 ≠ 0#8) :
    (encode 4 a.toNat)[j]? ≠ (encode 4 b.toNat)[j]? := by
  rw [getElem?_encode hj, getElem?_encode hj]
  intro hsame
  have hbyte : (a.toNat >>> (8 * j)) % 256 = (b.toNat >>> (8 * j)) % 256 := congrArg UInt8.toNat (Option.some.inj hsame)
  have hshift : (a >>> (8 * j)).setWidth 8 = (b >>> (8 * j)).setWidth 8 := by
    apply BitVec.eq_of_toNat_eq
    rw [BitVec.toNat_setWidth, BitVec.toNat_setWidth, BitVec.toNat_ushiftRight, BitVec.toNat_ushiftRight]
    exact hbyte
  rw [BitVec.ushiftRight_xor_distrib, BitVec.setWidth_xor, hshift, BitVec.xor_self] at h
  exact h rfl

end LittleEndian

/-! ### Records that differ in the mask -/

namespace Settings

/-- The settings with another antenna mask. -/
def withMask (mask : UInt8) (settings : Settings) : Settings := { settings with antennaMask := mask }

/-- Every antenna bit changes all bytes of the check. -/
private theorem check_changes : ∀ difference : Fin 16, difference ≠ 0 → ∀ j : Fin 4,
    (Checksum.bitSteps (8 * 64) (BitVec.ofNat 32 difference.val) >>> (8 * j.val)).setWidth 8 ≠ 0#8 := by
  decide +kernel

private theorem payload_withMask (settings : Settings) :
    ∃ before after : Bytes, before.length = 4 ∧ after.length = 63 ∧
      ∀ mask, (settings.withMask mask).payload = before ++ mask :: after := by
  have hpayload (mask : UInt8) : (settings.withMask mask).payload =
      LittleEndian.encode 4 settings.bootIndex.toNat ++
        mask :: (if settings.sailOpened then 1 else 0) :: settings.sailAttempts :: 0 ::
          Device.all.flatMap (fun device => LittleEndian.encode 4 (settings.policies.get device).encode.toNat) :=
    List.append_assoc _ _ _
  exact ⟨_, _, LittleEndian.length_encode 4 _, by simp [Device.all], hpayload⟩

/-- The checks of records that differ in antennas only have no byte in common. -/
private theorem check_ne (settings : Settings) {b c : UInt8} (hne : b ≠ c) (hantennas : b ^^^ c < 16) {j : Nat}
    (hj : j < 4) :
    (LittleEndian.encode 4 (Checksum.compute (settings.withMask b).payload).toNat)[j]? ≠
      (LittleEndian.encode 4 (Checksum.compute (settings.withMask c).payload).toNat)[j]? := by
  obtain ⟨before, after, -, hafter, hpayload⟩ := settings.payload_withMask
  have hc : b ^^^ (b ^^^ c) = c := by
    rw [← UInt8.xor_assoc, UInt8.xor_self, UInt8.zero_xor]
  have hcheck := Checksum.compute_xor_byte before after b (b ^^^ c)
  rw [hc, hafter, ← hpayload, ← hpayload] at hcheck
  have hword : (b ^^^ c).toBitVec.setWidth 32 = BitVec.ofNat 32 (b ^^^ c).toNat :=
    (BitVec.ofNat_toNat 32 (b ^^^ c).toBitVec).symm
  have hnonzero : (⟨(b ^^^ c).toNat, hantennas⟩ : Fin 16) ≠ 0 := by
    intro hzero
    have hsame : (b ^^^ c).toNat = 0 := congrArg Fin.val hzero
    exact hne (UInt8.xor_eq_zero_iff.1 (UInt8.toNat_inj.1 hsame))
  apply LittleEndian.getElem?_encode_ne hj
  rw [hcheck, ← BitVec.xor_assoc, BitVec.xor_self, BitVec.zero_xor, hword]
  exact check_changes ⟨_, hantennas⟩ hnonzero ⟨j, hj⟩

/-- A byte on which two such records agree is the same in every such record. -/
private theorem getElem?_encode_withMask (settings : Settings) (a : UInt8) {b c : UInt8} (hne : b ≠ c)
    (hantennas : b ^^^ c < 16) {k : Nat} (hk : k < recordLength)
    (hsame : (settings.withMask b).encode[k]? = (settings.withMask c).encode[k]?) :
    (settings.withMask b).encode[k]? = (settings.withMask a).encode[k]? := by
  obtain ⟨before, after, hbefore, hafter, hpayload⟩ := settings.payload_withMask
  have hrecord (mask : UInt8) : (settings.withMask mask).encode =
      before ++ mask :: (after ++ LittleEndian.encode 4 (Checksum.compute (settings.withMask mask).payload).toNat) := by
    rw [encode, Checksum.sealed, hpayload, List.append_assoc, List.cons_append]
    rfl
  have hget (mask : UInt8) (i : Nat) : (settings.withMask mask).encode[before.length + i]? =
      (mask :: (after ++ LittleEndian.encode 4 (Checksum.compute (settings.withMask mask).payload).toNat))[i]? := by
    rw [hrecord, List.getElem?_append_right (Nat.le_add_right _ _), Nat.add_sub_cancel_left]
  rcases Nat.lt_or_ge k before.length with hlt | hge
  · rw [hrecord, hrecord, List.getElem?_append_left hlt, List.getElem?_append_left hlt]
  · obtain ⟨i, rfl⟩ := Nat.exists_eq_add_of_le hge
    rw [hget, hget] at hsame ⊢
    cases i with
    | zero => exact absurd (Option.some.inj hsame) hne
    | succ i =>
      rw [List.getElem?_cons_succ, List.getElem?_cons_succ] at hsame ⊢
      rcases Nat.lt_or_ge i after.length with hlt | hge
      · rw [List.getElem?_append_left hlt, List.getElem?_append_left hlt]
      · -- The byte belongs to the check, where the two do not agree.
        rw [List.getElem?_append_right hge, List.getElem?_append_right hge] at hsame
        rw [recordLength] at hk
        exact absurd hsame (settings.check_ne hne hantennas (by omega))

/-- Of three records that differ in antennas only, the first one is voted for as a whole unless the others are the
same. -/
theorem vote_encode_of_antennas (settings : Settings) (a : UInt8) {b c : UInt8} (hne : b ≠ c)
    (hantennas : b ^^^ c < 16) :
    ChipBank.vote recordLength
        ⟨some (settings.withMask a).encode, some (settings.withMask b).encode, some (settings.withMask c).encode⟩ =
      (settings.withMask a).encode := by
  have hget {k : Nat} (hk : k < recordLength) (mask : UInt8) : ∃ byte, (settings.withMask mask).encode[k]? = some byte :=
    ⟨_, List.getElem?_eq_getElem (by rw [length_encode]; exact hk)⟩
  rw [← length_encode (settings.withMask a)]
  apply ChipBank.vote_eq_of_voteByte
  intro k byte hbyte
  show ChipBank.voteByte ⟨(settings.withMask a).encode[k]?, (settings.withMask b).encode[k]?,
    (settings.withMask c).encode[k]?⟩ = some byte
  have hk : k < recordLength := by
    rw [← length_encode (settings.withMask a)]
    exact (List.getElem?_eq_some_iff.1 hbyte).1
  obtain ⟨second, hsecond⟩ := hget hk b
  obtain ⟨third, hthird⟩ := hget hk c
  have hagree : second = third → second = byte := by
    intro hsame
    have hfirst := settings.getElem?_encode_withMask a hne hantennas hk (by rw [hsecond, hthird, hsame])
    rw [hsecond, hbyte] at hfirst
    exact Option.some.inj hfirst
  rw [hbyte, hsecond, hthird, ChipBank.voteByte_eq_ite]
  split
  · rename_i hsame
    rw [hagree hsame]
  · rfl

end Settings

end Spacecraft
