import Spacecraft.Telemetry.Record

/-!
# Records and their bytes

A record fills 32 bytes without gaps: eight for the time, four for the boot index, one each for the antennas, the two
numbers of the sail and the attitude, fifteen for the counters and a spare one.  So records and strings of 32 bytes are
the same thing, written one way or the other (`decode_encode`, `encode_decode`), and every part of a snapshot can be read
off the bytes of its summary (`faithful_codec`).
-/

namespace Spacecraft

private theorem DeviceTable.getElem?_toList {α : Type} (table : DeviceTable α) (device : Device) :
    table.toList[device.index.val]? = some (table.get device) := by
  have hindex : device.index.val < table.toList.length := by simp
  rw [List.getElem?_eq_getElem hindex]
  simp [DeviceTable.get]

/-- The mode with a number in telemetry. -/
def AttitudeMode.ofCode? (code : UInt8) : Option AttitudeMode := AttitudeMode.all.find? fun mode => mode.code == code

@[simp]
theorem AttitudeMode.ofCode?_code (mode : AttitudeMode) : ofCode? mode.code = some mode := by
  cases mode <;> rfl

private theorem AntennaFlags.testBit_toMask (flags : AntennaFlags) (slot : Fin 4) :
    flags.toMask.toNat.testBit slot.val = flags.get slot := by
  obtain ⟨one, two, three, four⟩ := flags
  revert one two three four slot
  decide

/-- The bits of a mask are the four lowest. -/
private theorem AntennaFlags.testBit_toMask_of_le (flags : AntennaFlags) {bit : Nat} (h : 4 ≤ bit) :
    flags.toMask.toNat.testBit bit = false := by
  have hlt : flags.toMask.toNat < 2 ^ 4 := by
    obtain ⟨one, two, three, four⟩ := flags
    revert one two three four
    decide
  exact Nat.testBit_lt_two_pow (Nat.lt_of_lt_of_le hlt (Nat.pow_le_pow_right (by decide) h))

namespace TelemetryRecord

/-! ### Both ways -/

theorem decode_encode (record : TelemetryRecord) : decode record.encode = record := by
  have htime : (decode record.encode).time = record.time := LittleEndian.ofNat64_decode_encode record.time
  have hboot : (decode record.encode).bootIndex = record.bootIndex :=
    LittleEndian.ofNat_decode_encode record.bootIndex
  have hcounters : (decode record.encode).counters = record.counters := by
    apply DeviceTable.ext
    intro device
    have hcounter : record.encode[16 + device.index.val]? = some (record.counters.get device) := by
      have hfront : (LittleEndian.encode 8 record.time.toNat ++ LittleEndian.encode 4 record.bootIndex.toNat ++
          [record.antenna, record.sailOpened, record.sailAttempts, record.attitude]).length = 16 := by simp
      have hindex : device.index.val < record.counters.toList.length := by simp
      rw [encode, List.append_assoc, List.getElem?_append_right (by omega), hfront, Nat.add_sub_cancel_left,
        List.getElem?_append_left hindex, DeviceTable.getElem?_toList]
    rw [decode, DeviceTable.get_ofFn, hcounter, Option.getD_some]
  have hspare : (decode record.encode).spare = record.spare := by
    have hlast : record.encode[31]? = some record.spare := by
      rw [encode, List.getElem?_append_right (by simp)]
      simp
    rw [decode, hlast, Option.getD_some]
  calc decode record.encode
      = ⟨(decode record.encode).time, (decode record.encode).bootIndex, record.antenna, record.sailOpened,
          record.sailAttempts, record.attitude, (decode record.encode).counters, (decode record.encode).spare⟩ := rfl
    _ = record := by rw [htime, hboot, hcounters, hspare]

section

variable {bytes : Bytes}

/-- The four bytes between the words and the counters. -/
private theorem drop_eq_cons (h : length ≤ bytes.length) :
    bytes.drop 12 = bytes[12]?.getD 0 :: bytes[13]?.getD 0 :: bytes[14]?.getD 0 :: bytes[15]?.getD 0 ::
      bytes.drop 16 := by
  rw [length] at h
  rw [List.drop_eq_getElem_cons (by omega : 12 < bytes.length), List.drop_eq_getElem_cons (by omega : 13 < bytes.length),
    List.drop_eq_getElem_cons (by omega : 14 < bytes.length), List.drop_eq_getElem_cons (by omega : 15 < bytes.length)]
  simp [List.getElem?_eq_getElem (by omega : 12 < bytes.length), List.getElem?_eq_getElem (by omega : 13 < bytes.length),
    List.getElem?_eq_getElem (by omega : 14 < bytes.length), List.getElem?_eq_getElem (by omega : 15 < bytes.length)]

private theorem counters_decode (h : length ≤ bytes.length) :
    (decode bytes).counters.toList = (bytes.drop 16).take 15 := by
  rw [length] at h
  apply List.ext_getElem?
  intro i
  rcases Nat.lt_or_ge i 15 with hdevice | hpast
  · obtain ⟨device, hindex⟩ := Device.index_surjective ⟨i, hdevice⟩
    obtain rfl : device.index.val = i := congrArg Fin.val hindex
    have hcounter : bytes[16 + device.index.val]? = some bytes[16 + device.index.val] :=
      List.getElem?_eq_getElem (by omega)
    rw [DeviceTable.getElem?_toList, decode, DeviceTable.get_ofFn, List.getElem?_take_of_lt hdevice, List.getElem?_drop,
      hcounter, Option.getD_some]
  · rw [List.getElem?_eq_none (by simp; omega), List.getElem?_eq_none (by simp; omega)]

theorem encode_decode (h : bytes.length = length) : (decode bytes).encode = bytes := by
  have hlength : bytes.length = 32 := h
  have htime : LittleEndian.encode 8 (decode bytes).time.toNat = bytes.take 8 :=
    LittleEndian.encode_ofNat64_decode (by simp; omega)
  have hboot : LittleEndian.encode 4 (decode bytes).bootIndex.toNat = (bytes.drop 8).take 4 :=
    LittleEndian.encode_ofNat_decode (by simp; omega)
  have hspare : [(decode bytes).spare] = bytes.drop 31 := by
    have hlast : 31 < bytes.length := by omega
    have hend : bytes.drop 32 = [] := List.drop_of_length_le (by omega)
    rw [List.drop_eq_getElem_cons hlast, hend]
    simp [decode, List.getElem?_eq_getElem hlast]
  calc (decode bytes).encode
      = bytes.take 8 ++ ((bytes.drop 8).take 4 ++ ([(decode bytes).antenna, (decode bytes).sailOpened,
          (decode bytes).sailAttempts, (decode bytes).attitude] ++ ((bytes.drop 16).take 15 ++ bytes.drop 31))) := by
        rw [encode, htime, hboot, counters_decode (Nat.le_of_eq h.symm), hspare]
        simp only [List.append_assoc]
    _ = bytes.take 8 ++ ((bytes.drop 8).take 4 ++ ([(decode bytes).antenna, (decode bytes).sailOpened,
          (decode bytes).sailAttempts, (decode bytes).attitude] ++ bytes.drop 16)) := by
        have hcounters := List.take_append_drop 15 (bytes.drop 16)
        rw [List.drop_drop] at hcounters
        rw [hcounters]
    _ = bytes.take 8 ++ ((bytes.drop 8).take 4 ++ bytes.drop 12) := by
        rw [drop_eq_cons (Nat.le_of_eq h.symm)]
        rfl
    _ = bytes.take 8 ++ bytes.drop 8 := by
        have hwords := List.take_append_drop 4 (bytes.drop 8)
        rw [List.drop_drop] at hwords
        rw [hwords]
    _ = bytes := List.take_append_drop 8 bytes

private theorem parse_eq_some (h : length ≤ bytes.length) : parse bytes = some (decode bytes) :=
  if_neg (Nat.not_lt.2 h)

private theorem parse_eq_none_iff : parse bytes = none ↔ bytes.length < length := by
  rw [parse]
  split <;> simp_all

/-- What follows a record is not looked at. -/
private theorem decode_append (rest : Bytes) (h : bytes.length = length) : decode (bytes ++ rest) = decode bytes := by
  have hlength : bytes.length = 32 := h
  have hbyte {i : Nat} (hi : i < 32) : (bytes ++ rest)[i]? = bytes[i]? :=
    List.getElem?_append_left (by omega)
  have htime : (bytes ++ rest).take 8 = bytes.take 8 := List.take_append_of_le_length (by omega)
  have hboot : ((bytes ++ rest).drop 8).take 4 = (bytes.drop 8).take 4 := by
    rw [List.drop_append_of_le_length (by omega), List.take_append_of_le_length (by simp; omega)]
  have hcounters : (fun device : Device => (bytes ++ rest)[16 + device.index.val]?.getD 0) =
      fun device => bytes[16 + device.index.val]?.getD 0 := by
    funext device
    rw [hbyte (by omega)]
  rw [decode, decode, htime, hboot, hcounters, hbyte (by decide), hbyte (by decide), hbyte (by decide),
    hbyte (by decide), hbyte (by decide)]

end

/-! ### Summaries -/

/-- A record tells all that the summary of a snapshot is about. -/
structure Tells (record : TelemetryRecord) (snapshot : Snapshot) (counters : DeviceTable UInt8) : Prop where
  time : record.time.toNat = snapshot.time.millis % UInt64.size
  bootIndex : record.bootIndex = snapshot.settings.bootIndex
  antennas (slot : Fin 4) : record.antenna.toNat.testBit slot.val = snapshot.antennas.get slot
  deployed : record.antenna.toNat.testBit 7 = snapshot.antennasDeployed
  sailOpened : record.sailOpened = if snapshot.sailOpened then 1 else 0
  sailAttempts : record.sailAttempts = snapshot.sailAttempts
  attitude : AttitudeMode.ofCode? record.attitude = some snapshot.attitude
  counters (device : Device) : record.counters.get device = counters.get device

private theorem testBit_antenna (snapshot : Snapshot) (counters : DeviceTable UInt8) (bit : Nat) :
    (ofSnapshot snapshot counters).antenna.toNat.testBit bit =
      (snapshot.antennas.toMask.toNat.testBit bit || (snapshot.antennasDeployed && decide (bit = 7))) := by
  rw [ofSnapshot, UInt8.toNat_or, Nat.testBit_or]
  congr 1
  cases snapshot.antennasDeployed with
  | true =>
    have hbit : deployedBit.toNat = 2 ^ 7 := rfl
    rw [if_pos rfl, hbit, Nat.testBit_two_pow, Bool.true_and]
    exact decide_eq_decide.2 eq_comm
  | false => simp

private theorem tells_ofSnapshot (snapshot : Snapshot) (counters : DeviceTable UInt8) :
    Tells (ofSnapshot snapshot counters) snapshot counters where
  time := UInt64.toNat_ofNat'
  bootIndex := rfl
  antennas slot := by
    have hslot : slot.val ≠ 7 := by omega
    rw [testBit_antenna, AntennaFlags.testBit_toMask, decide_eq_false hslot, Bool.and_false, Bool.or_false]
  deployed := by
    rw [testBit_antenna, AntennaFlags.testBit_toMask_of_le _ (by decide), decide_eq_true rfl, Bool.and_true,
      Bool.false_or]
  sailOpened := rfl
  sailAttempts := rfl
  attitude := AttitudeMode.ofCode?_code snapshot.attitude
  counters _ := rfl

/-- A record fills 32 bytes, from which it comes back, and every 32 bytes are those of the record that they hold.
Bytes behind the first 32 are not looked at, and there is no record in fewer.  The bytes of a summary tell the time of
the snapshot in milliseconds in 64 bits, its boot index, each antenna and whether all are out, the sail, the attempts
to open it, the attitude mode and every counter. -/
theorem faithful_codec :
    (∀ record : TelemetryRecord, record.encode.length = 32 ∧ parse record.encode = some record) ∧
    (∀ bytes : Bytes, bytes.length = 32 → ∃ record, parse bytes = some record ∧ record.encode = bytes) ∧
    (∀ bytes rest : Bytes, bytes.length = 32 → parse (bytes ++ rest) = parse bytes) ∧
    (∀ bytes : Bytes, parse bytes = none ↔ bytes.length < 32) ∧
    ∀ (snapshot : Snapshot) (counters : DeviceTable UInt8),
      ∃ record, parse (ofSnapshot snapshot counters).encode = some record ∧ Tells record snapshot counters := by
  have hparse (record : TelemetryRecord) : parse record.encode = some record := by
    rw [parse_eq_some (Nat.le_of_eq record.length_encode.symm), decode_encode]
  refine ⟨?_, ?_, ?_, ?_, ?_⟩
  · intro record
    exact ⟨record.length_encode, hparse record⟩
  · intro bytes h
    exact ⟨decode bytes, parse_eq_some (Nat.le_of_eq h.symm), encode_decode h⟩
  · intro bytes rest h
    have hlong : length ≤ (bytes ++ rest).length := by
      rw [List.length_append, h]
      exact Nat.le_add_right _ _
    rw [parse_eq_some hlong, parse_eq_some (Nat.le_of_eq h.symm), decode_append rest h]
  · intro bytes
    exact parse_eq_none_iff
  · intro snapshot counters
    exact ⟨ofSnapshot snapshot counters, hparse _, tells_ofSnapshot snapshot counters⟩

/-- Bytes that no summary has, with more behind them. -/
theorem faithful_codec_all_ones :
    let ones : Bytes := List.replicate 32 0xFF
    (∃ record, parse ones = some record ∧ record.encode = ones) ∧ parse (ones ++ [1, 2, 3]) = parse ones := by
  intro ones
  obtain ⟨-, hback, hbehind, -, -⟩ := faithful_codec
  exact ⟨hback ones rfl, hbehind ones [1, 2, 3] rfl⟩

end TelemetryRecord

end Spacecraft
