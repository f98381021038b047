import Spacecraft.Checksum
import Spacecraft.Fault.Device
import Spacecraft.Fault.Policy

/-!
# The settings record

What the satellite remembers across power cycles, and its layout in 72 bytes: the boot index, the antenna mask, the two
sail bytes, a spare byte, one policy word per device and the check of all of them.
-/

namespace Spacecraft

/-- What outlives a power cycle. -/
structure Settings where
  /-- The number of boots so far. -/
  bootIndex : UInt32
  /-- Bit `i` is set once antenna `i + 1` was seen deployed. -/
  antennaMask : UInt8
  sailOpened : Bool
  sailAttempts : UInt8
  policies : DeviceTable Policy
deriving DecidableEq

namespace Settings

/-- The settings of a satellite that has never booted. -/
def initial : Settings := ⟨0, 0, false, 0, DeviceTable.ofFn fun _ => .standard⟩

instance : Inhabited Settings := ⟨initial⟩

/-- The number of bytes of a record. -/
def recordLength : Nat := 72

/-- The settings as bytes, without their check. -/
def payload (settings : Settings) : Bytes :=
  LittleEndian.encode 4 settings.bootIndex.toNat ++
    [settings.antennaMask, if settings.sailOpened then 1 else 0, settings.sailAttempts, 0] ++
    Device.all.flatMap (fun device => LittleEndian.encode 4 (settings.policies.get device).encode.toNat)

/-- The settings as a record. -/
def encode (settings : Settings) : Bytes := Checksum.sealed settings.payload

/-- The policy word of a device in a record. -/
def policyWord (record : Bytes) (device : Device) : UInt32 :=
  UInt32.ofNat (LittleEndian.decode ((record.drop (8 + 4 * device.index.val)).take 4))

/-- The settings in a record of the right length; the spare byte is skipped. -/
def decode (record : Bytes) : Settings where
  bootIndex := UInt32.ofNat (LittleEndian.decode (record.take 4))
  antennaMask := record[4]?.getD 0
  sailOpened := record[5]?.getD 0 != 0
  sailAttempts := record[6]?.getD 0
  policies := DeviceTable.ofFn fun device => Policy.decode (policyWord record device)

/-- The settings in a record whose check is right. -/
def ofRecord? (record : Bytes) : Option Settings :=
  if Checksum.verify record then some (decode record) else none

/-! ### Reading a record back -/

@[simp]
theorem length_payload (settings : Settings) : settings.payload.length = 68 := by
  simp [payload, Device.all]

@[simp]
theorem length_encode (settings : Settings) : settings.encode.length = recordLength := by
  rw [encode, Checksum.length_sealed, length_payload, recordLength]

/-- Of pieces of one length that stand one after the other, the piece with number `i` starts at `length * i`. -/
private theorem take_drop_flatMap {α : Type} {f : α → Bytes} {length : Nat} (hf : ∀ a, (f a).length = length)
    (l : List α) (rest : Bytes) {i : Nat} {a : α} (ha : l[i]? = some a) :
    ((l.flatMap f ++ rest).drop (length * i)).take length = f a := by
  induction l generalizing i with
  | nil => cases ha
  | cons b l ih =>
    rw [List.flatMap_cons, List.append_assoc]
    cases i with
    | zero =>
      obtain rfl := Option.some.inj ha
      rw [Nat.mul_zero, List.drop_zero, List.take_left' (hf b)]
    | succ i =>
      rw [Nat.mul_succ, Nat.add_comm, ← List.drop_drop, List.drop_left' (hf b)]
      exact ih ha

private theorem policyWord_encode (settings : Settings) (device : Device) :
    policyWord settings.encode device = (settings.policies.get device).encode := by
  have hdevice : Device.all[device.index.val]? = some device := by
    cases device <;> rfl
  have hpieces := take_drop_flatMap
    (fun device => LittleEndian.length_encode 4 (settings.policies.get device).encode.toNat) Device.all
    (LittleEndian.encode Checksum.width (Checksum.compute settings.payload).toNat) hdevice
  -- The words stand after the eight bytes of the other fields.
  have hskip : settings.encode.drop (8 + 4 * device.index.val) =
      (Device.all.flatMap (fun device => LittleEndian.encode 4 (settings.policies.get device).encode.toNat) ++
        LittleEndian.encode Checksum.width (Checksum.compute settings.payload).toNat).drop
          (4 * device.index.val) := by
    rw [← List.drop_drop, encode, Checksum.sealed]
    rfl
  rw [policyWord, hskip, hpieces, LittleEndian.ofNat_decode_encode]

/-- Settings come back from their record. -/
@[simp]
theorem decode_encode (settings : Settings) : decode settings.encode = settings := by
  have hboot : (decode settings.encode).bootIndex = settings.bootIndex :=
    LittleEndian.ofNat_decode_encode settings.bootIndex
  have hopened : (decode settings.encode).sailOpened = settings.sailOpened := by
    show ((if settings.sailOpened then 1 else 0 : UInt8) != 0) = settings.sailOpened
    cases settings.sailOpened <;> rfl
  have hpolicies : (decode settings.encode).policies = settings.policies := by
    apply DeviceTable.ext
    intro device
    rw [decode, DeviceTable.get_ofFn, policyWord_encode, Policy.decode_encode]
  calc decode settings.encode
      = ⟨(decode settings.encode).bootIndex, settings.antennaMask, (decode settings.encode).sailOpened,
          settings.sailAttempts, (decode settings.encode).policies⟩ := rfl
    _ = settings := by rw [hboot, hopened, hpolicies]

theorem verify_encode (settings : Settings) : Checksum.verify settings.encode = true := by
  apply Checksum.verify_sealed
  rw [← List.length_pos_iff, length_payload]
  decide

/-- The record of settings is accepted, and they come back from it. -/
@[simp]
theorem ofRecord?_encode (settings : Settings) : ofRecord? settings.encode = some settings := by
  rw [ofRecord?, if_pos settings.verify_encode, decode_encode]

end Settings

end Spacecraft
