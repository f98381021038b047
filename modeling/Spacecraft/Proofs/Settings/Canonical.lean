import Spacecraft.Settings.Record

/-!
# Records that say the same

A record has bits that carry nothing: the spare byte, the top byte of every policy word, and which nonzero byte says
that the sail is open.  Settings that are read from a record and written again come out with those bits in the one form
in which they are written (`encode_decode`), and nothing else is lost: records hold the same settings exactly where
they are the same in this form (`decode_eq_decode_iff`).
-/

namespace Spacecraft

/-- Of pieces of one length, byte `j` of the piece with number `i` is byte `length * i + j` of them all. -/
private theorem getElem?_flatMap_of_length {α : Type} {f : α → Bytes} {length : Nat} (hf : ∀ a, (f a).length = length)
    (l : List α) (i : Nat) {j : Nat} (hj : j < length) :
    (l.flatMap f)[length * i + j]? = l[i]?.bind fun a => (f a)[j]? := by
  induction l generalizing i with
  | nil => rfl
  | cons a l ih =>
    rw [List.flatMap_cons]
    cases i with
    | zero =>
      rw [Nat.mul_zero, Nat.zero_add, List.getElem?_append_left (by rw [hf]; exact hj)]
      rfl
    | succ i =>
      have hpast : length * (i + 1) + j = (f a).length + (length * i + j) := by
        rw [hf, Nat.mul_succ]
        omega
      rw [hpast, List.getElem?_append_right (Nat.le_add_right _ _), Nat.add_sub_cancel_left, ih]
      rfl

namespace Policy

/-- A policy word that is read and written again loses its top byte. -/
private theorem encode_decode_word {bytes : Bytes} (h : bytes.length = 4) :
    LittleEndian.encode 4 (decode (UInt32.ofNat (LittleEndian.decode bytes))).encode.toNat = bytes.take 3 ++ [0] := by
  match bytes, h with
  | [a, b, c, d], _ =>
    have ha := a.toNat_lt
    have hb := b.toNat_lt
    have hc := c.toNat_lt
    have hd := d.toNat_lt
    have hword : (UInt32.ofNat (LittleEndian.decode [a, b, c, d])).toNat =
        a.toNat + 256 * (b.toNat + 256 * (c.toNat + 256 * d.toNat)) := by
      simp only [LittleEndian.decode, UInt32.toNat_ofNat']
      omega
    have hpolicy : decode (UInt32.ofNat (LittleEndian.decode [a, b, c, d])) = ⟨a, b, c⟩ := by
      simp only [decode, hword, Policy.mk.injEq]
      refine ⟨?_, ?_, ?_⟩ <;> apply UInt8.toNat_inj.1 <;> simp only [UInt8.toNat_ofNat'] <;> omega
    have hwritten : (Policy.mk a b c).encode.toNat = LittleEndian.decode [a, b, c, 0] := by
      rw [toNat_encode]
      simp [LittleEndian.decode]
    rw [hpolicy, hwritten]
    exact LittleEndian.encode_decode [a, b, c, 0]

end Policy

namespace Settings

/-- How a data byte of a record is written, given how it was read. -/
def canonicalByte (place : Nat) (byte : UInt8) : UInt8 :=
  if place = 5 then (if byte = 0 then 0 else 1)
  else if place = 7 ∨ (8 ≤ place ∧ place % 4 = 3) then 0
  else byte

/-- The data of a record in the form in which they are written: the sail's byte is 0 or 1, and the spare byte and the
top byte of every policy word are 0. -/
def canonical (data : Bytes) : Bytes := data.mapIdx canonicalByte

private theorem getElem?_canonical (data : Bytes) (i : Nat) : (canonical data)[i]? = data[i]?.map (canonicalByte i) :=
  List.getElem?_mapIdx

@[simp]
theorem length_canonical (data : Bytes) : (canonical data).length = data.length :=
  List.length_mapIdx

/-- Outside the sail's byte, the spare byte and the top bytes nothing changes. -/
private theorem canonicalByte_eq_id {place : Nat} (hsail : place ≠ 5) (hspare : place ≠ 7)
    (htop : 8 ≤ place → place % 4 ≠ 3) : canonicalByte place = id := by
  funext byte
  rw [canonicalByte, if_neg hsail, if_neg (by omega), id]

/-! ### Settings written again -/

variable {record : Bytes}

private theorem length_data (h : record.length = recordLength) : (Checksum.payload record).length = 68 := by
  rw [Checksum.payload, List.length_take, h]
  rfl

private theorem getElem?_data {i : Nat} (h : record.length = recordLength) (hi : i < 68) :
    ∃ byte, record[i]? = some byte ∧ (Checksum.payload record)[i]? = some byte := by
  have hlt : i < record.length := by
    rw [h, recordLength]
    omega
  refine ⟨record[i], List.getElem?_eq_getElem hlt, ?_⟩
  show (record.take (record.length - 4))[i]? = some record[i]
  rw [h, List.getElem?_take_of_lt (by rw [recordLength]; omega), List.getElem?_eq_getElem hlt]

private theorem encode_policy_decode (h : record.length = recordLength) (device : Device) :
    LittleEndian.encode 4 ((decode record).policies.get device).encode.toNat =
      (record.drop (8 + 4 * device.index.val)).take 3 ++ [0] := by
  have hindex := device.index.isLt
  have hlength : ((record.drop (8 + 4 * device.index.val)).take 4).length = 4 := by
    rw [List.length_take, List.length_drop, h, recordLength]
    omega
  rw [decode, DeviceTable.get_ofFn, policyWord, Policy.encode_decode_word hlength, List.take_take]
  rfl

/-- The eight bytes before the policy words. -/
private theorem getElem?_front (h : record.length = recordLength) {i : Nat} (hi : i < 8) :
    (LittleEndian.encode 4 (decode record).bootIndex.toNat ++
        [(decode record).antennaMask, if (decode record).sailOpened then 1 else 0, (decode record).sailAttempts,
          0])[i]? = (canonical (Checksum.payload record))[i]? := by
  have hfront : (record.take 4).length = 4 := List.length_take_of_le (by rw [h]; decide)
  have hboot : LittleEndian.encode 4 (decode record).bootIndex.toNat = record.take 4 :=
    LittleEndian.encode_ofNat_decode hfront
  obtain ⟨byte, hbyte, hdata⟩ := getElem?_data h (Nat.lt_trans hi (by decide))
  rw [getElem?_canonical, hdata, hboot]
  rcases Nat.lt_or_ge i 4 with hword | hflags
  · rw [List.getElem?_append_left (by rw [hfront]; exact hword), List.getElem?_take_of_lt hword, hbyte,
      canonicalByte_eq_id (by omega) (by omega) (by omega), Option.map_id_fun, id]
  · rw [List.getElem?_append_right (by rw [hfront]; exact hflags), hfront, Option.map_some]
    have hplace : i = 4 ∨ i = 5 ∨ i = 6 ∨ i = 7 := by omega
    rcases hplace with rfl | rfl | rfl | rfl
    · show some (record[4]?.getD 0) = some byte
      rw [hbyte, Option.getD_some]
    · show some (if record[5]?.getD 0 != 0 then 1 else 0) = some (if byte = 0 then 0 else 1)
      rw [hbyte, Option.getD_some]
      by_cases hclosed : byte = 0 <;> simp [hclosed]
    · show some (record[6]?.getD 0) = some byte
      rw [hbyte, Option.getD_some]
    · rfl

private theorem getElem?_policies (h : record.length = recordLength) (k : Nat) :
    (Device.all.flatMap fun device =>
        LittleEndian.encode 4 ((decode record).policies.get device).encode.toNat)[k]? =
      (canonical (Checksum.payload record))[8 + k]? := by
  obtain ⟨q, j, hj, rfl⟩ : ∃ q j, j < 4 ∧ k = 4 * q + j := ⟨k / 4, k % 4, Nat.mod_lt _ (by decide), by omega⟩
  rw [getElem?_flatMap_of_length (fun _ => LittleEndian.length_encode 4 _) Device.all q hj, getElem?_canonical]
  rcases Nat.lt_or_ge q 15 with hdevice | hpast
  · obtain ⟨device, hindex⟩ := Device.index_surjective ⟨q, hdevice⟩
    obtain rfl : device.index.val = q := congrArg Fin.val hindex
    obtain ⟨byte, hbyte, hdata⟩ := getElem?_data h (i := 8 + (4 * device.index.val + j)) (by omega)
    have hall : Device.all[device.index.val]? = some device := by
      cases device <;> rfl
    have hkept : ((record.drop (8 + 4 * device.index.val)).take 3).length = 3 := by
      rw [List.length_take, List.length_drop, h, recordLength]
      omega
    rw [hall, Option.bind_some, encode_policy_decode h, hdata, Option.map_some]
    -- The three lower bytes of the word carry the policy, the top one nothing.
    rcases Nat.lt_or_ge j 3 with hlow | htop
    · rw [List.getElem?_append_left (by rw [hkept]; exact hlow), List.getElem?_take_of_lt hlow, List.getElem?_drop,
        Nat.add_assoc, hbyte, canonicalByte_eq_id (by omega) (by omega) (by omega), id]
    · obtain rfl : j = 3 := by omega
      rw [List.getElem?_append_right (Nat.le_of_eq hkept), hkept, canonicalByte, if_neg (by omega), if_pos (by omega)]
      rfl
  · have hend : (Checksum.payload record)[8 + (4 * q + j)]? = none := by
      rw [List.getElem?_eq_none_iff, length_data h]
      omega
    rw [List.getElem?_eq_none hpast, hend]
    rfl

private theorem payload_decode (h : record.length = recordLength) :
    (decode record).payload = canonical (Checksum.payload record) := by
  apply List.ext_getElem?
  intro i
  rw [payload]
  rcases Nat.lt_or_ge i 8 with hlow | hhigh
  · rw [List.getElem?_append_left hlow]
    exact getElem?_front h hlow
  · obtain ⟨k, rfl⟩ := Nat.exists_eq_add_of_le hhigh
    rw [List.getElem?_append_right hhigh, ← getElem?_policies h]
    exact congrArg _ (Nat.add_sub_cancel_left 8 k)

/-- Settings that are read from a record are written as the record in canonical form, with the check of that form. -/
theorem encode_decode (h : record.length = recordLength) :
    (decode record).encode = Checksum.sealed (canonical (Checksum.payload record)) := by
  rw [encode, payload_decode h]

/-- Records hold the same settings exactly where their data are the same in canonical form. -/
theorem decode_eq_decode_iff {other : Bytes} (h : record.length = recordLength) (ho : other.length = recordLength) :
    decode record = decode other ↔ canonical (Checksum.payload record) = canonical (Checksum.payload other) := by
  rw [← payload_decode h, ← payload_decode ho]
  constructor
  · exact congrArg payload
  · intro hsame
    rw [← decode_encode (decode record), encode, hsame, ← encode, decode_encode]

/-- The record of settings is 72 bytes long and accepted, and the settings come back from it.  Settings that are read
from 72 bytes are written again as the same data, but for the sail's byte, which becomes 0 or 1, and the spare byte and
the top byte of every policy word, which become 0, with the check of these data behind them.  So two records hold the
same settings exactly where they agree on their data in this form. -/
theorem rewrites_canonically :
    (∀ settings : Settings, settings.encode.length = 72 ∧ Checksum.verify settings.encode = true ∧
      decode settings.encode = settings) ∧
    (∀ record : Bytes, record.length = 72 →
      (decode record).encode = Checksum.sealed (canonical (record.take 68))) ∧
    ∀ record other : Bytes, record.length = 72 → other.length = 72 →
      (decode record = decode other ↔ canonical (record.take 68) = canonical (other.take 68)) := by
  have hdata {record : Bytes} (h : record.length = 72) : Checksum.payload record = record.take 68 := by
    rw [Checksum.payload, h]
    rfl
  refine ⟨?_, ?_, ?_⟩
  · intro settings
    exact ⟨settings.length_encode, settings.verify_encode, settings.decode_encode⟩
  · intro record h
    rw [← hdata h]
    exact encode_decode h
  · intro record other h ho
    rw [← hdata h, ← hdata ho]
    exact decode_eq_decode_iff h ho

theorem rewrites_canonically_all_ones :
    let ones : Bytes := List.replicate 68 0xFF
    let record := Checksum.sealed ones
    let other := Checksum.sealed (canonical ones)
    (Checksum.verify record = true ∧ Checksum.verify other = true ∧ record ≠ other) ∧
      (decode record).encode = other ∧ decode record = decode other := by
  intro ones record other
  have hdiffer : record ≠ other := by
    intro h
    have hsail : record[5]? = other[5]? := congrArg (fun bytes => bytes[5]?) h
    exact absurd hsail (by decide)
  refine ⟨⟨Checksum.verify_sealed (by decide), Checksum.verify_sealed (by decide), hdiffer⟩, ?_, ?_⟩
  · exact rewrites_canonically.2.1 record rfl
  · exact (rewrites_canonically.2.2 record other rfl rfl).2 (by decide)

end Settings

end Spacecraft
