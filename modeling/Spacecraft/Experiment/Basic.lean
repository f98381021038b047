/-!
# What experiments answer
-/

namespace Spacecraft

/-- The answer to starting an experiment. -/
inductive StartResult where
  | success
  | failure
deriving DecidableEq, Inhabited, Repr

/-- All answers to starting an experiment. -/
def StartResult.all : List StartResult := [.success, .failure]

/-- The name of an answer. -/
def StartResult.name : StartResult → String
  | success => "Success"
  | failure => "Failure"

/-- The answer to one iteration of an experiment, and the reason for stopping it. -/
inductive IterationResult where
  /-- Nothing more to do. -/
  | finished
  /-- Go on at once. -/
  | loopImmediately
  /-- Go on after the next mission pass. -/
  | waitForNextCycle
  /-- The experiment cannot go on. -/
  | failure
  /-- The run was cut short. -/
  | abort
deriving DecidableEq, Inhabited, Repr

/-- All answers to an iteration. -/
def IterationResult.all : List IterationResult := [.finished, .loopImmediately, .waitForNextCycle, .failure, .abort]

/-- The name of an answer. -/
def IterationResult.name : IterationResult → String
  | finished => "Finished"
  | loopImmediately => "LoopImmediately"
  | waitForNextCycle => "WaitForNextCycle"
  | failure => "Failure"
  | abort => "Abort"

/-- The result ends the run. -/
def IterationResult.isFinal : IterationResult → Bool
  | finished | failure | abort => true
  | loopImmediately | waitForNextCycle => false

end Spacecraft
