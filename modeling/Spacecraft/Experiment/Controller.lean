import Spacecraft.Experiment.Basic
import Spacecraft.Signal.Mailbox

/-!
# The experiment controller

What the mission passes, the operator and the experiment thread share: a request that waits for the next pass, a
mailbox that hands it to the thread, four event flags, and what is known of the current run.  A request is refused
while a run is in progress.
-/

namespace Spacecraft

/-- The flags between the mission passes and the experiment thread. -/
structure ExperimentEvents where
  inProgress : Bool
  abortRequested : Bool
  /-- A mission pass lets a waiting experiment go on. -/
  iterationStarted : Bool
  shutdown : Bool
deriving DecidableEq, Repr

/-- The flags as bits, in the order in which they are listed. -/
def ExperimentEvents.toBits (events : ExperimentEvents) : Nat :=
  (if events.inProgress then 1 else 0) + (if events.abortRequested then 2 else 0) +
    (if events.iterationStarted then 4 else 0) + (if events.shutdown then 8 else 0)

/-- What is known of the experiments. -/
structure ExperimentInfo where
  requested : Option UInt8
  current : Option UInt8
  lastStart : Option StartResult
  lastIteration : Option IterationResult
  /-- The number of runs that were stopped. -/
  completedRuns : UInt32
deriving DecidableEq, Repr

/-- What is shared between the mission passes, the operator and the experiment thread. -/
structure ExperimentController where
  queue : Mailbox UInt8
  events : ExperimentEvents
  /-- A pass has handed over a request and is not over yet. -/
  pendingStart : Bool
  /-- A pass has let the experiment go on and is not over yet. -/
  kicked : Bool
  info : ExperimentInfo
deriving DecidableEq

namespace ExperimentController

/-- No request, no run. -/
def initial : ExperimentController where
  queue := .empty
  events := ⟨false, false, false, false⟩
  pendingStart := false
  kicked := false
  info := ⟨none, none, none, none, 0⟩

instance : Inhabited ExperimentController := ⟨initial⟩

/-- A run is in progress. -/
def inProgress (c : ExperimentController) : Bool := c.events.inProgress

/-- Ask for an experiment to be started by the next pass; refused while a run is in progress. -/
def request (code : UInt8) (c : ExperimentController) : Bool × ExperimentController :=
  if c.inProgress then (false, c) else (true, { c with info := { c.info with requested := some code } })

/-- Ask for the current run to end at its next iteration boundary. -/
def abort (c : ExperimentController) : ExperimentController :=
  { c with events := { c.events with abortRequested := true } }

/-- Ask the thread to end.  The flag comes before the closing of the mailbox. -/
def shutDown (c : ExperimentController) : ExperimentController :=
  { c with events := { c.events with shutdown := true }, queue := c.queue.close }

/-! ### The part of the mission passes -/

/-- The name of the action that hands a request over. -/
def startActionName : String := "StartExp"

/-- The name of the action that lets a waiting experiment go on. -/
def kickActionName : String := "KickExp"

/-- There is a request to hand over. -/
def startCondition (c : ExperimentController) : Bool := c.info.requested.isSome && !c.inProgress

/-- Hand the request to the thread. -/
def start (c : ExperimentController) : ExperimentController :=
  match c.info.requested with
  | none => c
  | some code =>
    { c with info := { c.info with requested := none }, pendingStart := true, queue := c.queue.overwrite code }

/-- A run is in progress that this pass did not hand over. -/
def kickCondition (c : ExperimentController) : Bool := c.inProgress && !c.pendingStart

/-- Let the waiting experiment go on. -/
def kick (c : ExperimentController) : ExperimentController :=
  { c with kicked := true, events := { c.events with iterationStarted := true } }

/-- The end of a pass lets a waiting experiment go on, unless the pass handed it over or has let it go on already. -/
def notifyPass (c : ExperimentController) : ExperimentController :=
  let releases := !c.kicked && !c.pendingStart && c.inProgress
  { c with
    kicked := false
    pendingStart := false
    events := { c.events with iterationStarted := c.events.iterationStarted || releases } }

/-! ### The part of the experiment thread -/

/-- Forget an old abort and an old pass before a run. -/
def clearStale (c : ExperimentController) : ExperimentController :=
  { c with events := { c.events with abortRequested := false, iterationStarted := false } }

/-- A run is in progress from now on, or no longer. -/
def setInProgress (value : Bool) (c : ExperimentController) : ExperimentController :=
  { c with events := { c.events with inProgress := value } }

/-- Publish which experiment runs. -/
def publishRun (code : UInt8) (c : ExperimentController) : ExperimentController :=
  { c with info := { c.info with current := some code, lastStart := none, lastIteration := none } }

/-- Publish the answer to starting an experiment. -/
def publishStart (result : StartResult) (c : ExperimentController) : ExperimentController :=
  { c with info := { c.info with lastStart := some result } }

/-- Publish the answer to an iteration. -/
def publishIteration (result : IterationResult) (c : ExperimentController) : ExperimentController :=
  { c with info := { c.info with lastIteration := some result } }

/-- Publish the end of a run; only a run that was stopped counts as completed. -/
def publishEnd (result : Option IterationResult) (c : ExperimentController) : ExperimentController :=
  match result with
  | none => { c with info := { c.info with current := none } }
  | some result =>
    { c with info := { c.info with
        current := none
        lastIteration := some result
        completedRuns := c.info.completedRuns + 1 } }

/-- An iteration may not begin. -/
def mustStop (c : ExperimentController) : Bool := c.events.abortRequested || c.events.shutdown

/-- Take note of an abort. -/
def clearAbort (c : ExperimentController) : ExperimentController :=
  { c with events := { c.events with abortRequested := false } }

/-- A thread that waits for the next pass goes on. -/
def released (c : ExperimentController) : Bool :=
  c.events.iterationStarted || c.events.abortRequested || c.events.shutdown

/-- Take note that a pass let the experiment go on. -/
def clearIteration (c : ExperimentController) : ExperimentController :=
  { c with events := { c.events with iterationStarted := false } }

/-- A call that an operator makes. -/
inductive Call where
  | request (code : UInt8)
  | abort
  | shutdown
deriving DecidableEq, Repr

/-- The controller after a call of the operator. -/
def apply (c : ExperimentController) : Call → ExperimentController
  | .request code => (c.request code).2
  | .abort => c.abort
  | .shutdown => c.shutDown

end ExperimentController

end Spacecraft
