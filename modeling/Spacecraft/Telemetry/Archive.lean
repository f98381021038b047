import Spacecraft.Config.Mission
import Spacecraft.Storage.Files
import Spacecraft.Telemetry.Record

/-!
# The telemetry archive

Records are appended to the current file.  A current file that has grown to its limit first takes the place of the
previous file.  Neither step minds whether the other worked.
-/

namespace Spacecraft

namespace TelemetryArchive

/-- The file that records are appended to. -/
def currentPath : String := "/telemetry.current"

/-- The file that the last full one was moved to. -/
def previousPath : String := "/telemetry.previous"

variable {σ : Type} [FileStore σ]

/-- The current file has reached its limit. -/
def isFull (limit : UInt64) (store : σ) : Bool :=
  match FileStore.size store currentPath with
  | .ok size => decide (limit.toNat ≤ size)
  | .error _ => false

/-- Put a full current file aside. -/
def rotate (limit : UInt64) (store : σ) : σ :=
  if isFull limit store then (FileStore.rename currentPath previousPath store).2 else store

/-- Save a record. -/
def save (limit : UInt64) (record : TelemetryRecord) (store : σ) : σ :=
  (FileStore.append currentPath record.encode (rotate limit store)).2

theorem sameBut_rotate (limit : UInt64) (files : Files) :
    files.SameBut [currentPath, previousPath] (rotate limit files) := by
  unfold rotate
  split
  · exact files.sameBut_rename List.mem_cons_self (List.mem_cons_of_mem _ List.mem_cons_self)
  · exact .refl _ files

/-- Telemetry touches the files of its archive. -/
theorem sameBut_save (limit : UInt64) (record : TelemetryRecord) (files : Files) :
    files.SameBut [currentPath, previousPath] (save limit record files) :=
  (sameBut_rotate limit files).trans ((rotate limit files).sameBut_append _ List.mem_cons_self)

end TelemetryArchive

/-- When telemetry was last saved, and how it is to be saved. -/
structure TelemetryTask where
  lastSave : Option Duration
  period : Duration
  limit : UInt64
deriving DecidableEq

namespace TelemetryTask

/-- Nothing saved yet. -/
def fresh (config : MissionConfig) : TelemetryTask :=
  ⟨none, config.telemetryPeriod, config.telemetryMaxFileSize⟩

/-- The name of the action. -/
def actionName : String := "Save telemetry"

/-- A record is due. -/
def condition (snapshot : Snapshot) (task : TelemetryTask) : Bool :=
  match task.lastSave with
  | none => true
  | some last => decide (task.period ≤ snapshot.time - last)

/-- Save a record of the snapshot. -/
def execute {σ : Type} [FileStore σ] (snapshot : Snapshot) (counters : DeviceTable UInt8) (store : σ)
    (task : TelemetryTask) : σ × TelemetryTask :=
  (TelemetryArchive.save task.limit (.ofSnapshot snapshot counters) store,
    { task with lastSave := some snapshot.time })

end TelemetryTask

end Spacecraft
