import Spacecraft.Experiment.Controller

/-!
# The experiment thread

The thread takes a code from the mailbox, starts the experiment, iterates it and stops it.  It is written as a machine
whose every step touches what it shares with other threads at most once, so that any interleaving with passes and
operator calls is a sequence of steps of the machine and of operations of the controller.  Letting the machine run
until it blocks (`ExperimentHost.settle`) is one schedule among them.
-/

namespace Spacecraft

/-- An experiment that acts on a world.  An iteration may also make operator calls. -/
structure Experiment (σ : Type) where
  code : UInt8
  start : ExperimentController → σ → StartResult × σ
  iterate : ExperimentController → σ → IterationResult × List ExperimentController.Call × σ
  stop : IterationResult → σ → σ

/-- The experiments that can be asked for, and where the results of completed runs go. -/
structure Laboratory (σ : Type) where
  experiments : List (Experiment σ)
  record : IterationResult → σ → σ

/-- The first registered experiment of a code. -/
def Laboratory.find? {σ : Type} (lab : Laboratory σ) (code : UInt8) : Option (Experiment σ) :=
  lab.experiments.find? fun experiment => experiment.code == code

/-- Where the experiment thread stands. -/
inductive ExperimentThread (σ : Type) where
  /-- The thread does not exist yet. -/
  | unborn
  /-- Waiting for a code. -/
  | receiving
  /-- A code came; the thread may have been asked to end meanwhile. -/
  | received (code : UInt8)
  /-- Old flags are to be cleared. -/
  | preparing (experiment : Experiment σ)
  /-- The run is to be marked as in progress. -/
  | marking (experiment : Experiment σ)
  /-- The run is to be published. -/
  | publishing (experiment : Experiment σ)
  | starting (experiment : Experiment σ)
  | started (experiment : Experiment σ) (result : StartResult)
  /-- Between two iterations. -/
  | boundary (experiment : Experiment σ)
  /-- The run is to be cut short. -/
  | aborting (experiment : Experiment σ)
  | iterating (experiment : Experiment σ)
  | iterated (experiment : Experiment σ) (result : IterationResult)
  /-- Waiting for the next pass. -/
  | pausing (experiment : Experiment σ)
  /-- A pass, an abort or a shutdown ended the wait. -/
  | resuming (experiment : Experiment σ)
  | stopping (experiment : Experiment σ) (result : IterationResult)
  /-- The end of the run is to be published. -/
  | closing (result : Option IterationResult)
  /-- The run is no longer in progress. -/
  | releasing (result : Option IterationResult)
  | recording (result : IterationResult)
  | ended

namespace ExperimentThread

variable {σ : Type}

/-- The experiment that the thread holds, from finding it until its run is over. -/
def held? : ExperimentThread σ → Option (Experiment σ)
  | preparing e | marking e | publishing e | starting e | started e _ | boundary e | aborting e | iterating e
  | iterated e _ | pausing e | resuming e | stopping e _ => some e
  | unborn | receiving | received _ | closing _ | releasing _ | recording _ | ended => none

/-- The thread has run to its end. -/
def hasEnded : ExperimentThread σ → Bool
  | ended => true
  | _ => false

/-- The thread was started. -/
def wasSpawned : ExperimentThread σ → Bool
  | unborn => false
  | _ => true

/-- The thread is in the middle of a run. -/
def inRun : ExperimentThread σ → Bool
  | unborn | receiving | received _ | ended => false
  | _ => true

end ExperimentThread

/-- The controller, the experiment thread and the world in which experiments act. -/
structure ExperimentHost (σ : Type) where
  controller : ExperimentController
  thread : ExperimentThread σ
  world : σ

namespace ExperimentHost

variable {σ : Type}

/-- Start the thread, unless it runs. -/
def spawn (host : ExperimentHost σ) : ExperimentHost σ :=
  if host.thread.wasSpawned && !host.thread.hasEnded then host else { host with thread := .receiving }

/-- Change the controller. -/
def control (f : ExperimentController → ExperimentController) (host : ExperimentHost σ) : ExperimentHost σ :=
  { host with controller := f host.controller }

/-- Move the thread on. -/
def goto (thread : ExperimentThread σ) (host : ExperimentHost σ) : ExperimentHost σ := { host with thread }

/-- Where the thread goes from an answer to an iteration. -/
def afterIteration (experiment : Experiment σ) : IterationResult → ExperimentThread σ
  | .loopImmediately => .boundary experiment
  | .waitForNextCycle => .pausing experiment
  | .finished => .stopping experiment .finished
  | .failure => .stopping experiment .failure
  | .abort => .stopping experiment .abort

/-- The next step of the thread, if it is not blocked. -/
def step (lab : Laboratory σ) (host : ExperimentHost σ) : Option (ExperimentHost σ) :=
  match host.thread with
  | .unborn | .ended => none
  | .receiving =>
    match host.controller.queue.peek with
    | .item code => some { host with
        thread := .received code
        controller := { host.controller with queue := host.controller.queue.drain } }
    | .closed => some (host.goto .ended)
    | .waiting => none
  | .received code =>
    if host.controller.events.shutdown then some (host.goto .ended)
    else
      match lab.find? code with
      | none => some (host.goto .receiving)
      | some experiment => some (host.goto (.preparing experiment))
  | .preparing e => some ((host.control .clearStale).goto (.marking e))
  | .marking e => some ((host.control (.setInProgress true)).goto (.publishing e))
  | .publishing e => some ((host.control (.publishRun e.code)).goto (.starting e))
  | .starting e =>
    let (result, world) := e.start host.controller host.world
    some { host with thread := .started e result, world }
  | .started e result =>
    let next := match result with
      | .success => .boundary e
      | .failure => .closing none
    some ((host.control (.publishStart result)).goto next)
  | .boundary e => some (host.goto (if host.controller.mustStop then .aborting e else .iterating e))
  | .aborting e => some ((host.control .clearAbort).goto (.stopping e .abort))
  | .iterating e =>
    let (result, calls, world) := e.iterate host.controller host.world
    some { controller := calls.foldl .apply host.controller, thread := .iterated e result, world }
  | .iterated e result => some ((host.control (.publishIteration result)).goto (afterIteration e result))
  | .pausing e => if host.controller.released then some (host.goto (.resuming e)) else none
  | .resuming e => some ((host.control .clearIteration).goto (.boundary e))
  | .stopping e result => some { host with thread := .closing (some result), world := e.stop result host.world }
  | .closing result => some ((host.control (.publishEnd result)).goto (.releasing result))
  | .releasing result =>
    some ((host.control (.setInProgress false)).goto (match result with
      | some result => .recording result
      | none => .receiving))
  | .recording result => some { host with thread := .receiving, world := lab.record result host.world }

/-- Let the thread run until it blocks, for at most so many steps. -/
def settle (lab : Laboratory σ) : Nat → ExperimentHost σ → ExperimentHost σ
  | 0, host => host
  | limit + 1, host =>
    match host.step lab with
    | none => host
    | some next => settle lab limit next

end ExperimentHost

end Spacecraft
