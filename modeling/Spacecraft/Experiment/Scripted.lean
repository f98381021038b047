import Spacecraft.Experiment.Thread

/-!
# Experiments on the test bench

Experiments that answer from a prepared list and note what was asked of them.  A used-up list answers that the
experiment is finished.
-/

namespace Spacecraft

/-- One prepared answer, and the operator call made before it is given. -/
structure ScriptEntry where
  call : Option ExperimentController.Call
  result : IterationResult
deriving DecidableEq

/-- What an experiment on the bench was asked. -/
inductive BenchNote where
  | start (code : UInt8) (info : ExperimentInfo)
  | iteration (code : UInt8)
  /-- The experiment asked for a code and was or was not heard. -/
  | request (code : UInt8) (accepted : Bool)
  | stop (code : UInt8) (result : IterationResult)
deriving DecidableEq

/-- An experiment on the bench: its code, its answer to being started, and its answers to iterations. -/
structure ScriptedExperiment where
  code : UInt8
  start : StartResult
  script : List ScriptEntry
deriving DecidableEq

/-- The answers that are left to each experiment, and the notes, latest first. -/
structure ScriptedWorld where
  scripts : List (List ScriptEntry)
  notes : List BenchNote

namespace ScriptedWorld

/-- Make a note. -/
def note (n : BenchNote) (world : ScriptedWorld) : ScriptedWorld := { world with notes := n :: world.notes }

/-- The next answer of the experiment in a slot. -/
def next (slot : Nat) (world : ScriptedWorld) : ScriptEntry × ScriptedWorld :=
  match world.scripts[slot]?.getD [] with
  | [] => (⟨none, .finished⟩, world)
  | entry :: rest => (entry, { world with scripts := world.scripts.set slot rest })

/-- The experiment in a slot. -/
def experiment {ω : Type} (get : ω → ScriptedWorld) (put : ScriptedWorld → ω → ω) (slot : Nat) (code : UInt8)
    (start : StartResult) : Experiment ω where
  code := code
  start c world := (start, put ((get world).note (.start code c.info)) world)
  iterate c world :=
    let (entry, scripted) := (get world).next slot
    let scripted := scripted.note (.iteration code)
    let scripted := match entry.call with
      | some (.request code) => scripted.note (.request code (c.request code).1)
      | _ => scripted
    (entry.result, entry.call.toList, put scripted world)
  stop result world := put ((get world).note (.stop code result)) world

/-- Experiments that take the slots from a first one on. -/
def experiments {ω : Type} (get : ω → ScriptedWorld) (put : ScriptedWorld → ω → ω) (first : Nat)
    (scripted : List ScriptedExperiment) : List (Experiment ω) :=
  scripted.mapIdx fun i e => experiment get put (first + i) e.code e.start

/-- Give experiments slots of their own. -/
def register (scripted : List ScriptedExperiment) (world : ScriptedWorld) : ScriptedWorld :=
  { world with scripts := world.scripts ++ scripted.map ScriptedExperiment.script }

end ScriptedWorld

end Spacecraft
