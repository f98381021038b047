import Spacecraft.Config.Document
import Spacecraft.Proofs.Config.Reading

/-!
# Decimal numbers in documents

A number is written with the digits of its text, one byte each.  The reader adds them up again, and as long as the
number fits a word no digit is dropped and the check against the largest double passes; so a number is read as what was
written (`whole_append`).
-/

namespace Spacecraft

/-! ### Texts as bytes -/

private theorem toList_loop_eq (bytes : ByteArray) (i : Nat) (taken : Bytes) :
    ByteArray.toList.loop bytes i taken = taken.reverse ++ bytes.data.toList.drop i := by
  fun_induction ByteArray.toList.loop bytes i taken with
  | case1 i taken hi ih =>
    have hlt : i < bytes.data.toList.length := by simpa using hi
    have hget : bytes.get! i = bytes.data.toList[i] := by
      simp only [ByteArray.get!, Array.getElem_toList]
      exact getElem!_pos bytes.data i (by simpa using hlt)
    rw [ih, List.drop_eq_getElem_cons hlt, hget, List.reverse_cons, List.append_assoc, List.singleton_append]
  | case2 i taken hi =>
    have hend : bytes.data.toList.length ≤ i := by simpa using hi
    rw [List.drop_of_length_le hend, List.append_nil]

namespace MissionConfig

private theorem bytesOf_eq_flatMap (text : String) : bytesOf text = text.toList.flatMap String.utf8EncodeChar := by
  have hdata : text.toUTF8.toList = text.toUTF8.data.toList := by
    rw [ByteArray.toList, toList_loop_eq]
    rfl
  have hencode : text.toUTF8 = (text.toList.flatMap String.utf8EncodeChar).toByteArray :=
    String.utf8Encode_toList.symm
  rw [bytesOf, hdata, hencode, List.toList_data_toByteArray]

@[simp]
theorem bytesOf_append (text other : String) : bytesOf (text ++ other) = bytesOf text ++ bytesOf other := by
  simp only [bytesOf_eq_flatMap, String.toList_append, List.flatMap_append]

private theorem bytesOf_ofList {chars : List Char} (h : ∀ c ∈ chars, c.toNat < 128) :
    bytesOf (String.ofList chars) = chars.map Json.byte := by
  rw [bytesOf_eq_flatMap, String.toList_ofList]
  induction chars with
  | nil => rfl
  | cons c chars ih =>
    rw [List.forall_mem_cons] at h
    have hbyte : String.utf8EncodeChar c = [Json.byte c] := by
      have hascii : c.val.toNat ≤ 127 := Nat.le_of_lt_succ h.1
      rw [String.utf8EncodeChar.eq_1, if_pos hascii]
      rfl
    rw [List.flatMap_cons, hbyte, ih h.2]
    rfl

end MissionConfig

namespace Json

open MissionConfig (bytesOf bytesOf_ofList)

/-! ### Digits -/

private theorem toNat_of_isDigit {c : Char} (h : c.isDigit = true) : 48 ≤ c.toNat ∧ c.toNat ≤ 57 := by
  simp only [Char.isDigit, ge_iff_le, Bool.and_eq_true, decide_eq_true_eq, UInt32.le_iff_toNat_le] at h
  exact h

private theorem toNat_lt_of_isDigit {c : Char} (h : c.isDigit = true) : c.toNat < 128 :=
  Nat.lt_of_le_of_lt (toNat_of_isDigit h).2 (by decide)

private theorem toNat_byte {c : Char} (h : c.toNat < 128) : (byte c).toNat = c.toNat := by
  rw [byte, UInt8.toNat_ofNat']
  exact Nat.mod_eq_of_lt (by omega)

private theorem isDigit_byte {c : Char} (h : c.isDigit = true) : isDigit (byte c) = true := by
  simp only [isDigit, Bool.and_eq_true, decide_eq_true_eq, UInt8.le_iff_toNat_le]
  rw [toNat_byte (toNat_lt_of_isDigit h)]
  exact toNat_of_isDigit h

private theorem digitsFrom_map_byte {chars : List Char} (h : ∀ c ∈ chars, c.isDigit = true) (n : Nat) :
    digitsFrom n (chars.map byte) = Nat.ofDigitChars 10 chars n := by
  induction chars generalizing n with
  | nil => rfl
  | cons c chars ih =>
    rw [List.forall_mem_cons] at h
    have hc := toNat_byte (toNat_lt_of_isDigit h.1)
    show digitsFrom (10 * n + ((byte c).toNat - 48)) (chars.map byte) = _
    rw [ih h.2, hc]
    rfl

private theorem isDigit_toDigits (n : Nat) : ∀ c ∈ Nat.toDigits 10 n, c.isDigit = true :=
  fun _ hc => Nat.isDigit_of_mem_toDigits (by decide) (by decide) hc

/-- Only zero begins with a zero. -/
private theorem head?_toDigits {n : Nat} (h : n ≠ 0) : (Nat.toDigits 10 n).head? ≠ some '0' := by
  induction n using Nat.strongRecOn with
  | _ n ih =>
    rw [Nat.toDigits_eq_if (by decide)]
    split
    · rename_i hlt
      have hdigit : ∀ k : Fin 10, k.val ≠ 0 → k.val.digitChar ≠ '0' := by decide
      exact fun heq => hdigit ⟨n, hlt⟩ h (Option.some.inj heq)
    · have hrest := ih (n / 10) (by omega) (by omega)
      obtain ⟨first, digits, hdigits⟩ := List.exists_cons_of_ne_nil (Nat.toDigits_ne_nil (n := n / 10) (b := 10))
      rw [hdigits] at hrest ⊢
      exact hrest

private theorem bytesOf_toString (n : Nat) : bytesOf (toString n) = (Nat.toDigits 10 n).map byte := by
  rw [Nat.toString_eq_ofList_toDigits]
  exact bytesOf_ofList fun c hc => toNat_lt_of_isDigit (isDigit_toDigits n c hc)

private theorem digitsFrom_bytesOf (n : Nat) : digitsFrom 0 (bytesOf (toString n)) = n := by
  rw [bytesOf_toString, digitsFrom_map_byte (isDigit_toDigits n), Nat.ofDigitChars_ten_toDigits]

private theorem isDigits_bytesOf (n : Nat) : IsDigits (bytesOf (toString n)) := by
  rw [bytesOf_toString]
  constructor
  · simp [Nat.toDigits_ne_nil]
  · intro b hb
    obtain ⟨c, hc, rfl⟩ := List.mem_map.1 hb
    exact isDigit_byte (isDigit_toDigits n c hc)

private theorem isWhole_bytesOf (n : Nat) : IsWhole (bytesOf (toString n)) := by
  by_cases hzero : n = 0
  · subst hzero
    rw [bytesOf_toString]
    exact .inl rfl
  · refine .inr ⟨isDigits_bytesOf n, ?_⟩
    rw [bytesOf_toString, List.head?_map]
    intro heq
    obtain ⟨c, hc, hbyte⟩ := Option.map_eq_some_iff.1 heq
    have hmem : c ∈ Nat.toDigits 10 n := List.mem_of_mem_head? hc
    have hnat : c.toNat = '0'.toNat := by
      rw [← toNat_byte (toNat_lt_of_isDigit (isDigit_toDigits n c hmem)), hbyte]
      rfl
    rw [Char.toNat_inj.1 hnat] at hc
    exact head?_toDigits hzero hc

/-! ### The size of a number -/

/-- The number only grows as digits are read. -/
private theorem le_digitsFrom (n : Nat) (digits : Bytes) : n ≤ digitsFrom n digits := by
  induction digits generalizing n with
  | nil => exact Nat.le_refl n
  | cons d digits ih =>
    have hrest := ih (10 * n + (d.toNat - 48))
    show n ≤ digitsFrom (10 * n + (d.toNat - 48)) digits
    omega

private theorem significand_of_le {n : Nat} {digits : Bytes} (h : digitsFrom n digits ≤ largestWord) :
    significand n digits = (digitsFrom n digits, 0) := by
  induction digits generalizing n with
  | nil => rfl
  | cons d digits ih =>
    have hrest : digitsFrom (digitsFrom n [d]) digits ≤ largestWord := h
    have hfits : ¬ largestWord < digitsFrom n [d] :=
      Nat.not_lt.2 (Nat.le_trans (le_digitsFrom _ digits) hrest)
    rw [significand, if_neg hfits, ih hrest]
    rfl

private theorem roundTo_le (unit n : Nat) : Decimal.roundTo unit n ≤ n + unit := by
  have hlow : n / unit * unit ≤ n := Nat.div_mul_le_self n unit
  have hhigh : (n / unit + 1) * unit = n / unit * unit + unit := Nat.succ_mul _ _
  simp only [Decimal.roundTo]
  split
  · omega
  · split
    · omega
    · split <;> omega

private theorem roundToDouble_le (n : Nat) : Decimal.roundToDouble n ≤ 2 * n := by
  by_cases hzero : n = 0
  · subst hzero
    decide
  · have hunit : 1 <<< (Decimal.bitLength n - 53) ≤ n := by
      rw [Decimal.bitLength, if_neg hzero, Nat.one_shiftLeft]
      exact Nat.le_trans (Nat.pow_le_pow_right (by decide) (by omega)) (Nat.log2_self_le hzero)
    have hround := roundTo_le (1 <<< (Decimal.bitLength n - 53)) n
    rw [Decimal.roundToDouble]
    omega

private theorem isTooLarge_of_le {n : Nat} (h : n ≤ largestWord) : isTooLarge n 0 = false := by
  have hround := roundToDouble_le n
  have hproduct := roundToDouble_le (Decimal.roundToDouble n * Decimal.roundToDouble (Decimal.powerOfTen 0))
  have hone : Decimal.roundToDouble (Decimal.powerOfTen 0) = 1 := by decide
  have hbound : 4 * largestWord < Decimal.doubleBound := by decide
  rw [hone] at hproduct
  rw [isTooLarge, decide_eq_false_iff_not]
  rintro ⟨-, -, hlarge | hlarge⟩
  · omega
  · rw [Int.toNat_zero, hone] at hlarge
    omega

/-! ### Reading a number -/

variable {blanks rest : Bytes} {n : Nat}

private theorem unsigned_append (h : n ≤ largestWord) (hrest : Delimits rest) :
    unsigned (bytesOf (toString n) ++ rest) = .ok (some n, rest) := by
  have hinteger := integerDigits_append (isWhole_bytesOf n) hrest.noDigit
  have hpoint : fraction? rest = .ok (none, rest) := fraction?_none fun b hb => (hrest b hb).2.1
  have hscale : exponent? rest = .ok (none, rest) := exponent?_none fun b hb => (hrest b hb).2.2
  have hdigits : significand 0 (bytesOf (toString n)) = (n, 0) := by
    rw [significand_of_le] <;> rw [digitsFrom_bytesOf]
    exact h
  have hsmall := isTooLarge_of_le h
  simp only [unsigned, hinteger, hpoint, hscale, hdigits]
  simpa [significand] using hsmall

theorem whole_append {largest : Nat} (hn : n ≤ largest) (hlargest : largest ≤ largestWord) (hblanks : IsBlanks blanks)
    (hrest : Delimits rest) : whole largest (blanks ++ (bytesOf (toString n) ++ rest)) = .ok (n, rest) := by
  have hread := unsigned_append (Nat.le_trans hn hlargest) hrest
  obtain ⟨b, tail, hdigits, hb⟩ := (isDigits_bytesOf n).exists_cons
  rw [hdigits, List.cons_append] at hread ⊢
  rw [whole, skipBlanks_append_cons hblanks (isBlank_of_isDigit hb)]
  simp only [if_pos hb, hread, if_pos hn]

end Json

end Spacecraft
