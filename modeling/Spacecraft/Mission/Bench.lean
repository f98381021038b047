import Spacecraft.Metrics.Registry
import Spacecraft.Mission.Pass

/-!
# Hooks on the test bench

Hooks that work on a single number and do as they were told.  Each hook has a list of behaviours, one per call; the last
one is kept up.  What the hooks saw is noted in a log.
-/

namespace Spacecraft

/-- What a hook on the bench is told to do. -/
inductive BenchBehaviour where
  | succeed
  /-- Warn before changing the number. -/
  | warn
  /-- Change the number, then warn. -/
  | warnAfter
  /-- Panic before changing the number. -/
  | panic
  /-- Change the number, then panic. -/
  | panicAfter
deriving DecidableEq, Repr

/-- When an action on the bench runs. -/
inductive BenchCondition where
  | constant (holds : Bool)
  /-- The condition itself panics. -/
  | panic
  /-- The number has come to a bound. -/
  | atLeast (bound : Int)
deriving DecidableEq, Repr

/-- An update on the bench. -/
structure BenchUpdate where
  name : String
  amount : Int
  behaviours : List BenchBehaviour

/-- An action on the bench. -/
structure BenchAction where
  name : String
  condition : BenchCondition
  behaviours : List BenchBehaviour

/-- What a hook on the bench saw. -/
inductive HookNote where
  | update (name : String) (value : Int)
  | action (name : String) (value : Int)
  /-- The pass is over. -/
  | observed
deriving DecidableEq

/-- A note as a line of the log. -/
def HookNote.text : HookNote → String
  | update name value => s!"update:{name}:{value}"
  | action name value => s!"action:{name}:{value}"
  | observed => "observed"

/-- What the hooks on the bench share: their notes and the slots of the hooks called so far, latest first. -/
structure HookBench where
  notes : List HookNote
  calls : List Nat
  metrics : Option Metrics

namespace HookBench

/-- Nothing called yet. -/
def fresh (metrics : Option Metrics) : HookBench := ⟨[], [], metrics⟩

/-- Make a note. -/
def note (n : HookNote) (bench : HookBench) : HookBench := { bench with notes := n :: bench.notes }

/-- Count a call of a hook; the answer is what the hook is told to do this time. -/
def call (slot : Nat) (behaviours : List BenchBehaviour) (bench : HookBench) : BenchBehaviour × HookBench :=
  (behaviours.getD (bench.calls.count slot) (behaviours.getLastD .succeed), { bench with calls := slot :: bench.calls })

/-- How an update ends, and the number it leaves behind. -/
def updateOutcome (value changed : Int) : BenchBehaviour → UpdateOutcome × Int
  | .succeed => (.ok, changed)
  | .warn => (.warning, value)
  | .warnAfter => (.warning, changed)
  | .panic => (.panicked, value)
  | .panicAfter => (.panicked, changed)

/-- How an action ends; it has no number to change and nobody to warn. -/
def actionOutcome : BenchBehaviour → ActionOutcome
  | .panic => .panicked
  | .succeed | .warn | .warnAfter | .panicAfter => .done

/-- How a condition ends. -/
def conditionOutcome (value : Int) : BenchCondition → ConditionOutcome
  | .constant holds => .ofBool holds
  | .panic => .panicked
  | .atLeast bound => .ofBool (decide (bound ≤ value))

/-- The hook of an update in a slot. -/
def updateHook (slot : Nat) (update : BenchUpdate) : UpdateHook HookBench Int where
  name := update.name
  run value bench :=
    let (behaviour, bench) := (bench.note (.update update.name value)).call slot update.behaviours
    let (outcome, value) := updateOutcome value (value + update.amount) behaviour
    (outcome, value, bench)

/-- The hook of an action in a slot. -/
def actionHook (slot : Nat) (action : BenchAction) : ActionHook HookBench Int where
  name := action.name
  condition value _ := conditionOutcome value action.condition
  execute value bench :=
    let (behaviour, bench) := (bench.note (.action action.name value)).call slot action.behaviours
    (actionOutcome behaviour, bench)

/-- The mission loop of updates and actions, each in a slot of its own. -/
def missionLoop (updates : List BenchUpdate) (actions : List BenchAction) (observing : Bool) :
    MissionLoop HookBench Int where
  initial := 0
  updates := updates.mapIdx updateHook
  actions := actions.mapIdx fun i action => actionHook (updates.length + i) action
  notify bench := if observing then bench.note .observed else bench
  record summary bench := { bench with metrics := bench.metrics.map (Metrics.recordPass summary) }

end HookBench

end Spacecraft
