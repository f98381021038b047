/-!
# A mission pass

A pass runs every update on a fresh snapshot, then every action whose condition holds, then tells the observer.  Hooks
work on a world that they share.  A hook that panics is counted and skipped: what it wrote before stays, and the pass
goes on with the next hook.
-/

namespace Spacecraft

/-- How an update hook ended. -/
inductive UpdateOutcome where
  | ok
  | warning
  | panicked
deriving DecidableEq, Repr

/-- How the condition of an action ended. -/
inductive ConditionOutcome where
  | holds
  | fails
  | panicked
deriving DecidableEq, Repr

/-- The end of a condition that cannot panic. -/
def ConditionOutcome.ofBool (holds : Bool) : ConditionOutcome := if holds then .holds else .fails

/-- How an action hook ended. -/
inductive ActionOutcome where
  | done
  | panicked
deriving DecidableEq, Repr

/-- A hook that fills in its part of the snapshot. -/
structure UpdateHook (ω S : Type) where
  name : String
  run : S → ω → UpdateOutcome × S × ω

/-- A hook that acts on the world when its condition holds of the snapshot. -/
structure ActionHook (ω S : Type) where
  name : String
  condition : S → ω → ConditionOutcome
  execute : S → ω → ActionOutcome × ω

/-- What happened in a pass. -/
structure PassSummary where
  /-- Updates that could not refresh their part. -/
  warnings : Nat
  /-- Hooks that panicked. -/
  panics : Nat
  /-- The actions that ran to their end, in order. -/
  actions : List String
deriving DecidableEq, Repr

/-- Nothing happened. -/
def PassSummary.empty : PassSummary := ⟨0, 0, []⟩

/-- The hooks of a pass and what follows it. -/
structure MissionLoop (ω S : Type) where
  initial : S
  updates : List (UpdateHook ω S)
  actions : List (ActionHook ω S)
  /-- What the end of a pass does to the world. -/
  notify : ω → ω
  /-- Where the summary goes. -/
  record : PassSummary → ω → ω

namespace MissionLoop

variable {ω S : Type}

/-- Run updates in order. -/
def runUpdates : List (UpdateHook ω S) → PassSummary → S → ω → PassSummary × S × ω
  | [], summary, snapshot, world => (summary, snapshot, world)
  | hook :: rest, summary, snapshot, world =>
    let (outcome, snapshot, world) := hook.run snapshot world
    let summary := match outcome with
      | .ok => summary
      | .warning => { summary with warnings := summary.warnings + 1 }
      | .panicked => { summary with panics := summary.panics + 1 }
    runUpdates rest summary snapshot world

/-- Run one action if its condition holds. -/
def runAction (hook : ActionHook ω S) (summary : PassSummary) (snapshot : S) (world : ω) : PassSummary × ω :=
  match hook.condition snapshot world with
  | .fails => (summary, world)
  | .panicked => ({ summary with panics := summary.panics + 1 }, world)
  | .holds =>
    match hook.execute snapshot world with
    | (.done, world) => ({ summary with actions := summary.actions ++ [hook.name] }, world)
    | (.panicked, world) => ({ summary with panics := summary.panics + 1 }, world)

/-- Run actions in order on one snapshot. -/
def runActions : List (ActionHook ω S) → PassSummary → S → ω → PassSummary × ω
  | [], summary, _, world => (summary, world)
  | hook :: rest, summary, snapshot, world =>
    let (summary, world) := runAction hook summary snapshot world
    runActions rest summary snapshot world

/-- One pass. -/
def runOnce (loop : MissionLoop ω S) (world : ω) : PassSummary × ω :=
  let (summary, snapshot, world) := runUpdates loop.updates .empty loop.initial world
  let (summary, world) := runActions loop.actions summary snapshot world
  (summary, loop.record summary (loop.notify world))

end MissionLoop

end Spacecraft
