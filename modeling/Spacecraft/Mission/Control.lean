/-!
# Controlling the mission thread

The mission thread waits until it may run a pass, runs it, counts it and sleeps until the tick is over or something is
asked of it.  The operator can suspend it, let it run one pass at a time, and shut it down for good.
-/

namespace Spacecraft

/-- What was asked of the mission thread, and the passes it has completed. -/
structure LoopControl where
  suspended : Bool
  /-- One pass was asked for and has not been admitted yet. -/
  single : Bool
  shutdown : Bool
  passes : Nat
deriving DecidableEq, Repr

namespace LoopControl

/-- Nothing asked, nothing run. -/
def initial : LoopControl := ⟨false, false, false, 0⟩

instance : Inhabited LoopControl := ⟨initial⟩

/-- Run no pass after the current one. -/
def suspend (control : LoopControl) : LoopControl := { control with suspended := true }

/-- Run passes again. -/
def resume (control : LoopControl) : LoopControl := { control with suspended := false }

/-- Run one pass as soon as possible. -/
def requestSingle (control : LoopControl) : LoopControl := { control with single := true }

/-- Run no pass ever again. -/
def shutDown (control : LoopControl) : LoopControl := { control with shutdown := true }

/-- Count a completed pass. -/
def complete (control : LoopControl) : LoopControl := { control with passes := control.passes + 1 }

/-- The end of a wait for a pass. -/
inductive Admission where
  | pass
  | stop
deriving DecidableEq, Repr

/-- What a thread that waits for a pass is told; nothing means that it goes on waiting. -/
def verdict (control : LoopControl) : Option (Admission × LoopControl) :=
  if control.shutdown then some (.stop, control)
  else if control.single then some (.pass, { control with single := false })
  else if control.suspended then none
  else some (.pass, control)

/-- The sleep between passes is cut short. -/
def wakes (control : LoopControl) : Bool := control.shutdown || control.single || control.suspended

end LoopControl

/-- Where the mission thread stands. -/
inductive MissionThread where
  /-- Waiting until a pass is admitted. -/
  | waiting
  /-- A pass was admitted and is to be run. -/
  | running
  /-- The pass is over and is to be counted. -/
  | completing
  /-- Sleeping until the tick is over. -/
  | sleeping
  | stopped
deriving DecidableEq, Repr

namespace MissionThread

variable {ω : Type}

/-- The next step of the thread, if it is not blocked.  The world changes only by running a pass. -/
def step (pass : ω → ω) (thread : MissionThread) (control : LoopControl) (world : ω) :
    Option (MissionThread × LoopControl × ω) :=
  match thread with
  | waiting => control.verdict.map fun (admission, control) =>
    (match admission with
      | .pass => running
      | .stop => stopped, control, world)
  | running => some (completing, control, pass world)
  | completing => some (sleeping, control.complete, world)
  | sleeping => if control.wakes then some (waiting, control, world) else none
  | stopped => none

/-- The tick is over: a sleeping thread waits for its next pass. -/
def tick : MissionThread → MissionThread
  | sleeping => waiting
  | thread => thread

/-- Let the thread run until it blocks, for at most so many steps. -/
def settle (pass : ω → ω) : Nat → MissionThread → LoopControl → ω → MissionThread × LoopControl × ω
  | 0, thread, control, world => (thread, control, world)
  | limit + 1, thread, control, world =>
    match step pass thread control world with
    | none => (thread, control, world)
    | some (thread, control, world) => settle pass limit thread control world

end MissionThread

end Spacecraft
