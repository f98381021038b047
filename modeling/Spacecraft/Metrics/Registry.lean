import Spacecraft.Duration
import Spacecraft.Experiment.Basic
import Spacecraft.Fault.Device
import Spacecraft.Decimal
import Spacecraft.Metrics.Target
import Spacecraft.Mission.Pass

/-!
# Metrics

Counters and gauges of the mission, and their text for a monitoring system: families by name, children by label value,
a family with labels only once it has a child.
-/

namespace Spacecraft

/-- Under which label a completed run is counted. -/
inductive RunOutcome where
  | abort
  | failure
  | finished
  | interrupted
deriving DecidableEq, Repr

namespace RunOutcome

/-- All labels in alphabetical order. -/
def all : List RunOutcome := [abort, failure, finished, interrupted]

/-- The text of a label. -/
def label : RunOutcome → String
  | abort => "abort"
  | failure => "failure"
  | finished => "finished"
  | interrupted => "interrupted"

/-- The label of a run that ended with a result. -/
def ofResult : IterationResult → RunOutcome
  | .finished => finished
  | .failure => failure
  | .abort => abort
  | .loopImmediately | .waitForNextCycle => interrupted

end RunOutcome

/-- The counters and gauges.  What was never set is absent. -/
structure Metrics where
  passes : UInt64
  warnings : UInt64
  panics : UInt64
  runs : RunOutcome → Option UInt64
  counters : Option (DeviceTable UInt8)
  /-- In milliseconds. -/
  missionTime : Int64

namespace Metrics

/-- Nothing counted yet. -/
def initial : Metrics := ⟨0, 0, 0, fun _ => none, none, 0⟩

instance : Inhabited Metrics := ⟨initial⟩

/-- Count a pass. -/
def recordPass (summary : PassSummary) (m : Metrics) : Metrics :=
  { m with
    passes := m.passes + 1
    warnings := m.warnings + UInt64.ofNat summary.warnings
    panics := m.panics + UInt64.ofNat summary.panics }

/-- Count a completed run. -/
def recordRun (result : IterationResult) (m : Metrics) : Metrics :=
  let outcome := RunOutcome.ofResult result
  let count := (m.runs outcome).getD 0 + 1
  { m with runs := fun other => if other = outcome then some count else m.runs other }

/-- Show the error counters. -/
def observeCounters (values : DeviceTable UInt8) (m : Metrics) : Metrics := { m with counters := some values }

/-- Show the mission time, cut to 64 bits. -/
def setMissionTime (time : Duration) (m : Metrics) : Metrics := { m with missionTime := time.millis64.toInt64 }

/-! ### The text -/

/-- A family of metrics: its name, what it shows, its kind, and its children with their labels. -/
structure Family where
  name : String
  help : String
  kind : String
  children : List (String × String)

/-- Every name begins with this. -/
def namePrefix : String := "obc_"

/-- The lines of a family; none if it has no children. -/
def Family.lines (family : Family) : List String :=
  if family.children.isEmpty then []
  else
    ["# HELP " ++ namePrefix ++ family.name ++ " " ++ family.help,
      "# TYPE " ++ namePrefix ++ family.name ++ " " ++ family.kind] ++
      family.children.map fun child => namePrefix ++ family.name ++ child.1 ++ " " ++ child.2

/-- A label with its value. -/
def labelled (label value : String) : String := "\x7b" ++ label ++ "=\"" ++ value ++ "\"\x7d"

/-- The devices by name. -/
def devicesByName : List Device := Device.all.mergeSort fun a b => decide (a.name ≤ b.name)

/-- The families by name. -/
def families (m : Metrics) : List Family :=
  [⟨"experiments_completed_total", "Finished experiment runs", "counter",
      RunOutcome.all.filterMap fun outcome => (m.runs outcome).map fun count =>
        (labelled "result" outcome.label, Decimal.ofNat count.toNat)⟩,
    ⟨"fdir_error_counter", "Current FDIR error counter value", "gauge",
      match m.counters with
      | none => []
      | some values => devicesByName.map fun device =>
          (labelled "device" device.name, Decimal.ofNat (values.get device).toNat)⟩,
    ⟨"mission_descriptor_panics_total", "Update or action hooks that panicked", "counter",
      [("", Decimal.ofNat m.panics.toNat)]⟩,
    ⟨"mission_passes_total", "Completed mission loop passes", "counter", [("", Decimal.ofNat m.passes.toNat)]⟩,
    ⟨"mission_time_ms", "Mission time in milliseconds", "gauge", [("", Decimal.ofInt m.missionTime.toInt)]⟩,
    ⟨"mission_update_warnings_total", "Update hooks that could not refresh their part of the snapshot", "counter",
      [("", Decimal.ofNat m.warnings.toNat)]⟩]

/-- The text of all metrics, line by line. -/
def lines (m : Metrics) : List String := m.families.flatMap Family.lines

/-! ### Serving the text -/

/-- The answer to a request. -/
structure Response where
  status : Nat
  contentType : Option String
  body : List String

/-- The path at which the text is served. -/
def path : String := "/metrics"

/-- The kind of text that is served. -/
def contentType : String := "text/plain; version=0.0.4"

/-- Answer a request.  Only reading is allowed, with or without a body; nothing else is served. -/
def serve (method target : String) (m : Metrics) : Response :=
  if RequestTarget.path target = path then
    if method = "GET" then ⟨200, some contentType, m.lines⟩
    else if method = "HEAD" then ⟨200, some contentType, []⟩
    else ⟨405, none, []⟩
  else ⟨404, none, []⟩

end Metrics

end Spacecraft
