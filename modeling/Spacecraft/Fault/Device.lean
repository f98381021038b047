/-!
# Devices under supervision

The fifteen devices whose failures are counted, in the order in which tables and masks list them, and tables with one
entry per device.
-/

namespace Spacecraft

/-- A device whose failures are counted. -/
inductive Device where
  | comm | eps | antennaPrimary | antennaBackup | imtq | payload | rtc | fram0 | fram1 | fram2 | gyro | camera
  | sunSensor | nand | magnetometer
deriving DecidableEq, Inhabited, Repr

namespace Device

/-- All devices in table order. -/
def all : List Device :=
  [comm, eps, antennaPrimary, antennaBackup, imtq, payload, rtc, fram0, fram1, fram2, gyro, camera, sunSensor, nand,
    magnetometer]

/-- The position of a device in tables. -/
def index : Device → Fin 15
  | comm => 0 | eps => 1 | antennaPrimary => 2 | antennaBackup => 3 | imtq => 4 | payload => 5 | rtc => 6
  | fram0 => 7 | fram1 => 8 | fram2 => 9 | gyro => 10 | camera => 11 | sunSensor => 12 | nand => 13
  | magnetometer => 14

/-- The bit of a device in a mask. -/
def maskBit (device : Device) : UInt16 := 1 <<< UInt16.ofNat device.index.val

/-- The name under which a device is reported. -/
def name : Device → String
  | comm => "comm" | eps => "eps" | antennaPrimary => "antenna_primary" | antennaBackup => "antenna_backup"
  | imtq => "imtq" | payload => "payload" | rtc => "rtc" | fram0 => "fram0" | fram1 => "fram1" | fram2 => "fram2"
  | gyro => "gyro" | camera => "camera" | sunSensor => "sun_sensor" | nand => "nand" | magnetometer => "magnetometer"

theorem mem_all (device : Device) : device ∈ all := by
  cases device <;> decide

theorem index_injective {a b : Device} (h : a.index = b.index) : a = b := by
  revert h; cases a <;> cases b <;> decide

theorem index_surjective (i : Fin 15) : ∃ device : Device, device.index = i := by
  refine ⟨all.get i, ?_⟩
  revert i
  decide

end Device

/-- One entry per device. -/
abbrev DeviceTable (α : Type) := Vector α 15

namespace DeviceTable

variable {α β : Type}

/-- The entry of a device. -/
def get (table : DeviceTable α) (device : Device) : α := table[device.index]

/-- The table with the entry of one device replaced. -/
def set (device : Device) (entry : α) (table : DeviceTable α) : DeviceTable α :=
  Vector.set table device.index.val entry device.index.isLt

/-- The table that holds `f d` for each device `d`. -/
def ofFn (f : Device → α) : DeviceTable α :=
  ⟨(Device.all.map f).toArray, by simp [Device.all]⟩

theorem get_set (table : DeviceTable α) (device other : Device) (entry : α) :
    get (set device entry table) other = if other = device then entry else get table other := by
  unfold get set
  simp only [Fin.getElem_fin, Vector.getElem_set]
  by_cases h : other = device
  · subst h; simp
  · have : ¬ device.index.val = other.index.val := fun e => h (Device.index_injective (Fin.ext e.symm))
    simp [h, this]

@[simp]
theorem get_ofFn (f : Device → α) (device : Device) : get (ofFn f) device = f device := by
  cases device <;> rfl

/-- Tables that agree on every device are equal. -/
theorem ext {s t : DeviceTable α} (h : ∀ device, get s device = get t device) : s = t := by
  apply Vector.ext
  intro i hi
  obtain ⟨device, hdevice⟩ := Device.index_surjective ⟨i, hi⟩
  obtain rfl : device.index.val = i := congrArg Fin.val hdevice
  exact h device

end DeviceTable

end Spacecraft
