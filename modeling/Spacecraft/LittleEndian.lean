/-!
# Little-endian numbers

Numbers in records and on the wire, least byte first.  Reading and writing are inverse on `k` bytes and the numbers
below `capacity k` (`decode_encode`, `encode_decode`).
-/

namespace Spacecraft

/-- A string of bytes. -/
abbrev Bytes := List UInt8

namespace LittleEndian

/-- The low `k` bytes of a number, least byte first. -/
def encode : Nat → Nat → Bytes
  | 0, _ => []
  | k + 1, n => UInt8.ofNat n :: encode k (n / 256)

/-- The number whose bytes are given least first. -/
def decode : Bytes → Nat
  | [] => 0
  | b :: rest => b.toNat + 256 * decode rest

/-- How many numbers fit into `k` bytes. -/
def capacity : Nat → Nat
  | 0 => 1
  | k + 1 => 256 * capacity k

@[simp]
theorem length_encode (k n : Nat) : (encode k n).length = k := by
  induction k generalizing n with
  | zero => rfl
  | succ k ih => simp [encode, ih]

theorem capacity_le_capacity {j k : Nat} (h : j ≤ k) : capacity j ≤ capacity k := by
  induction h with
  | refl => exact Nat.le_refl _
  | step _ ih => exact Nat.le_trans ih (Nat.le_mul_of_pos_left _ (by decide))

theorem decode_lt (bytes : Bytes) : decode bytes < capacity bytes.length := by
  induction bytes with
  | nil => simp [decode, capacity]
  | cons b rest ih =>
    have := b.toNat_lt
    simp only [decode, List.length_cons, capacity]
    omega

theorem decode_encode (k n : Nat) : decode (encode k n) = n % capacity k := by
  induction k generalizing n with
  | zero => simp [encode, decode, capacity, Nat.mod_one]
  | succ k ih =>
    have hb : (UInt8.ofNat n).toNat = n % 256 := by simp
    rw [encode, decode, ih, hb, capacity, Nat.mod_mul]

theorem encode_decode (bytes : Bytes) : encode bytes.length (decode bytes) = bytes := by
  induction bytes with
  | nil => rfl
  | cons b rest ih =>
    have hb := b.toNat_lt
    have hd : (b.toNat + 256 * decode rest) / 256 = decode rest := by omega
    have hm : UInt8.ofNat (b.toNat + 256 * decode rest) = b := by
      apply UInt8.toNat_inj.1
      simp
    rw [List.length_cons, decode, encode, hd, ih, hm]

/-- Strings of one length that denote the same number are the same. -/
theorem decode_injective {bytes other : Bytes} (hlength : bytes.length = other.length)
    (h : decode bytes = decode other) : bytes = other := by
  rw [← encode_decode bytes, ← encode_decode other, hlength, h]

theorem getElem?_encode {k j : Nat} (hj : j < k) (n : Nat) : (encode k n)[j]? = some (UInt8.ofNat (n >>> (8 * j))) := by
  induction k generalizing j n with
  | zero => exact absurd hj (Nat.not_lt_zero j)
  | succ k ih =>
    cases j with
    | zero => rfl
    | succ j =>
      have hbyte : n / 256 = n >>> 8 := (Nat.shiftRight_eq_div_pow n 8).symm
      rw [encode, List.getElem?_cons_succ, ih (Nat.lt_of_succ_lt_succ hj), hbyte, ← Nat.shiftRight_add, Nat.mul_succ,
        Nat.add_comm]

theorem decode_encode_of_lt {k n : Nat} (h : n < capacity k) : decode (encode k n) = n := by
  rw [decode_encode, Nat.mod_eq_of_lt h]

theorem decode_lt_of_length {bytes : Bytes} {k : Nat} (h : bytes.length = k) : decode bytes < capacity k := by
  subst h
  exact decode_lt bytes

theorem encode_decode_of_length {bytes : Bytes} {k : Nat} (h : bytes.length = k) : encode k (decode bytes) = bytes := by
  subst h
  exact encode_decode bytes

/-- A word comes back from its four bytes. -/
theorem ofNat_decode_encode (word : UInt32) : UInt32.ofNat (decode (encode 4 word.toNat)) = word := by
  have hlt : word.toNat < capacity 4 := word.toNat_lt
  rw [decode_encode_of_lt hlt, UInt32.ofNat_toNat]

/-- Four bytes come back from their word. -/
theorem encode_ofNat_decode {bytes : Bytes} (h : bytes.length = 4) :
    encode 4 (UInt32.ofNat (decode bytes)).toNat = bytes := by
  have hlt : decode bytes < 2 ^ 32 := decode_lt_of_length h
  rw [UInt32.toNat_ofNat', Nat.mod_eq_of_lt hlt, encode_decode_of_length h]

/-- A word of 64 bits comes back from its eight bytes. -/
theorem ofNat64_decode_encode (word : UInt64) : UInt64.ofNat (decode (encode 8 word.toNat)) = word := by
  have hlt : word.toNat < capacity 8 := word.toNat_lt
  rw [decode_encode_of_lt hlt, UInt64.ofNat_toNat]

/-- Eight bytes come back from their word of 64 bits. -/
theorem encode_ofNat64_decode {bytes : Bytes} (h : bytes.length = 8) :
    encode 8 (UInt64.ofNat (decode bytes)).toNat = bytes := by
  have hlt : decode bytes < 2 ^ 64 := decode_lt_of_length h
  rw [UInt64.toNat_ofNat', Nat.mod_eq_of_lt hlt, encode_decode_of_length h]

end LittleEndian

end Spacecraft
