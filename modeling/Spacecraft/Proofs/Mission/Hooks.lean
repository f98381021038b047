import Mathlib.Data.List.Forall2
import Mathlib.Logic.Function.Iterate
import Spacecraft.Mission.Pass

/-!
# The hooks of a pass

What a pass does is compared with what its hooks do one after the other when nobody cares how they end (`filled`,
`acted`).  The calls of the hooks are written down where they arrive (`MissionLoop.heard`), which changes nothing
(`runOnce_heard`).  Every update is called once, on what the ones before it wrote, then each action whose condition
holds, all on the same snapshot, and then the observer; a panic only shows in the summary (`runOnce_eq`), because the
calls do not depend on how a hook ends (`SameEffects.calls_calm`).
-/

namespace Spacecraft

/-- A call in a pass: what the hook in a slot saw, what it left, and how it ended. -/
inductive HookCall (S : Type) where
  | update (slot : Nat) (seen left : S) (outcome : UpdateOutcome)
  | execute (slot : Nat) (name : String) (seen : S) (outcome : ActionOutcome)
  | notify

namespace HookCall

variable {S : Type}

/-- An update could not refresh its part. -/
def warns : HookCall S → Bool
  | update _ _ _ outcome => decide (outcome = .warning)
  | execute _ _ _ _ | notify => false

/-- A hook panicked. -/
def panics : HookCall S → Bool
  | update _ _ _ outcome => decide (outcome = .panicked)
  | execute _ _ _ outcome => decide (outcome = .panicked)
  | notify => false

/-- The action that ran to its end. -/
def finished? : HookCall S → Option String
  | execute _ name _ .done => some name
  | execute _ _ _ .panicked | update _ _ _ _ | notify => none

/-- The call with a hook that does not panic. -/
def calm : HookCall S → HookCall S
  | update slot seen left _ => update slot seen left .ok
  | execute slot name seen _ => execute slot name seen .done
  | notify => notify

end HookCall

/-- A world in which the calls of hooks are written down. -/
structure HeardWorld (ω S : Type) where
  world : ω
  calls : List (HookCall S)

variable {ω S : Type}

namespace UpdateHook

/-- The call of an update. -/
def call (slot : Nat) (state : S × ω) (hook : UpdateHook ω S) : HookCall S :=
  .update slot state.1 (hook.run state.1 state.2).2.1 (hook.run state.1 state.2).1

/-- What updates write one after the other, however they end. -/
def fill (hooks : List (UpdateHook ω S)) (state : S × ω) : S × ω :=
  hooks.foldl (fun state hook => (hook.run state.1 state.2).2) state

/-- The update with its calls written down. -/
def heard (slot : Nat) (hook : UpdateHook ω S) : UpdateHook (HeardWorld ω S) S where
  name := hook.name
  run snapshot h :=
    let (outcome, left, world) := hook.run snapshot h.world
    (outcome, left, ⟨world, h.calls ++ [.update slot snapshot left outcome]⟩)

/-- Two updates write the same, however they end. -/
def SameEffect (hook other : UpdateHook ω S) : Prop :=
  ∀ snapshot world, (hook.run snapshot world).2 = (other.run snapshot world).2

end UpdateHook

namespace ActionHook

/-- What an action does to the world: nothing unless its condition holds. -/
def effect (snapshot : S) (world : ω) (hook : ActionHook ω S) : ω :=
  match hook.condition snapshot world with
  | .holds => (hook.execute snapshot world).2
  | .fails | .panicked => world

/-- The call of an action if its condition holds, and else none. -/
def calls (slot : Nat) (snapshot : S) (world : ω) (hook : ActionHook ω S) : List (HookCall S) :=
  match hook.condition snapshot world with
  | .holds => [.execute slot hook.name snapshot (hook.execute snapshot world).1]
  | .fails | .panicked => []

/-- What actions do one after the other, however they end. -/
def act (hooks : List (ActionHook ω S)) (snapshot : S) (world : ω) : ω :=
  hooks.foldl (fun world hook => hook.effect snapshot world) world

/-- The action with its calls written down. -/
def heard (slot : Nat) (hook : ActionHook ω S) : ActionHook (HeardWorld ω S) S where
  name := hook.name
  condition snapshot h := hook.condition snapshot h.world
  execute snapshot h :=
    let (outcome, world) := hook.execute snapshot h.world
    (outcome, ⟨world, h.calls ++ [.execute slot hook.name snapshot outcome]⟩)

/-- Two actions of one name run under the same condition and do the same, however they end. -/
structure SameEffect (hook other : ActionHook ω S) : Prop where
  name : hook.name = other.name
  condition (snapshot : S) (world : ω) :
    hook.condition snapshot world = .holds ↔ other.condition snapshot world = .holds
  execute (snapshot : S) (world : ω) : (hook.execute snapshot world).2 = (other.execute snapshot world).2

private theorem effect_eq_ite (snapshot : S) (world : ω) (hook : ActionHook ω S) :
    hook.effect snapshot world =
      if hook.condition snapshot world = .holds then (hook.execute snapshot world).2 else world := by
  rw [effect]
  cases hook.condition snapshot world <;> rfl

private theorem calls_calm_eq_ite (slot : Nat) (snapshot : S) (world : ω) (hook : ActionHook ω S) :
    (hook.calls slot snapshot world).map HookCall.calm =
      if hook.condition snapshot world = .holds then [.execute slot hook.name snapshot .done] else [] := by
  rw [calls]
  cases hook.condition snapshot world <;> rfl

private theorem SameEffect.effect_eq {hook other : ActionHook ω S} (h : hook.SameEffect other) (snapshot : S)
    (world : ω) :
    hook.effect snapshot world = other.effect snapshot world := by
  simp only [effect_eq_ite, h.condition, h.execute]

theorem SameEffect.calls_calm {hook other : ActionHook ω S} (h : hook.SameEffect other) (slot : Nat) (snapshot : S)
    (world : ω) :
    (hook.calls slot snapshot world).map HookCall.calm = (other.calls slot snapshot world).map HookCall.calm := by
  simp only [calls_calm_eq_ite, h.condition, h.name]

end ActionHook

namespace MissionLoop

/-- The loop with the calls of its hooks written down. -/
def heard (loop : MissionLoop ω S) : MissionLoop (HeardWorld ω S) S where
  initial := loop.initial
  updates := loop.updates.mapIdx UpdateHook.heard
  actions := loop.actions.mapIdx ActionHook.heard
  notify h := ⟨loop.notify h.world, h.calls ++ [.notify]⟩
  record summary h := { h with world := loop.record summary h.world }

section Reference

variable (loop : MissionLoop ω S) (world : ω)

/-- The snapshot and the world after so many updates. -/
def filled (n : Nat) : S × ω := UpdateHook.fill (loop.updates.take n) (loop.initial, world)

/-- The snapshot that all updates leave. -/
def snapshot : S := (loop.filled world loop.updates.length).1

/-- The world after all updates and so many actions. -/
def acted (n : Nat) : ω :=
  ActionHook.act (loop.actions.take n) (loop.snapshot world) (loop.filled world loop.updates.length).2

/-- How the conditions of the actions end. -/
def conditions : List ConditionOutcome :=
  loop.actions.mapIdx fun slot hook => hook.condition (loop.snapshot world) (loop.acted world slot)

/-- The calls of a pass in order. -/
def calls : List (HookCall S) :=
  (loop.updates.mapIdx fun slot hook => hook.call slot (loop.filled world slot)) ++
    (loop.actions.mapIdx fun slot hook => hook.calls slot (loop.snapshot world) (loop.acted world slot)).flatten ++
    [.notify]

end Reference

/-! ### Updates -/

/-- The calls of updates in slots that follow each other. -/
def updateCalls (first : Nat) (hooks : List (UpdateHook ω S)) (state : S × ω) : List (HookCall S) :=
  hooks.mapIdx fun slot hook => hook.call (first + slot) (UpdateHook.fill (hooks.take slot) state)

private theorem updateCalls_cons (first : Nat) (hook : UpdateHook ω S) (rest : List (UpdateHook ω S)) (state : S × ω) :
    updateCalls first (hook :: rest) state =
      hook.call first state :: updateCalls (first + 1) rest (hook.run state.1 state.2).2 := by
  simp only [updateCalls, List.mapIdx_cons, Nat.add_assoc, Nat.add_comm 1]
  rfl

private theorem updateCalls_finished (first : Nat) (hooks : List (UpdateHook ω S)) (state : S × ω) :
    (updateCalls first hooks state).filterMap HookCall.finished? = [] := by
  induction hooks generalizing first state with
  | nil => rfl
  | cons hook rest ih =>
    rw [updateCalls_cons]
    exact ih (first + 1) _

private theorem runUpdates_eq (first : Nat) (hooks : List (UpdateHook ω S)) (summary : PassSummary) (snapshot : S)
    (world : ω) :
    let calls := updateCalls first hooks (snapshot, world)
    runUpdates hooks summary snapshot world =
      (⟨summary.warnings + calls.countP HookCall.warns, summary.panics + calls.countP HookCall.panics,
        summary.actions⟩, UpdateHook.fill hooks (snapshot, world)) := by
  induction hooks generalizing first summary snapshot world with
  | nil => rfl
  | cons hook rest ih =>
    rcases hrun : hook.run snapshot world with ⟨outcome, left, next⟩
    have hcall : hook.call first (snapshot, world) = .update first snapshot left outcome := by
      rw [UpdateHook.call, hrun]
    have hfill : UpdateHook.fill (hook :: rest) (snapshot, world) = UpdateHook.fill rest (left, next) := by
      simp [UpdateHook.fill, hrun]
    simp only [updateCalls_cons, runUpdates, hrun, hcall, hfill, ih (first + 1), List.countP_cons]
    cases outcome <;> simp [HookCall.warns, HookCall.panics] <;> omega

private theorem runUpdates_heard (first : Nat) (hooks : List (UpdateHook ω S)) (summary : PassSummary) (snapshot : S)
    (world : ω) (before : List (HookCall S)) :
    let (summary', snapshot', world') := runUpdates hooks summary snapshot world
    runUpdates (hooks.mapIdx fun slot hook => hook.heard (first + slot)) summary snapshot ⟨world, before⟩ =
      (summary', snapshot', ⟨world', before ++ updateCalls first hooks (snapshot, world)⟩) := by
  induction hooks generalizing first summary snapshot world before with
  | nil => simp [runUpdates, updateCalls]
  | cons hook rest ih =>
    have hslots : (fun slot (hook : UpdateHook ω S) => hook.heard (first + (slot + 1))) =
        fun slot hook => hook.heard (first + 1 + slot) := by
      simp only [Nat.add_assoc, Nat.add_comm 1]
    rcases hrun : hook.run snapshot world with ⟨outcome, left, next⟩
    have hheard : (hook.heard (first + 0)).run snapshot ⟨world, before⟩ =
        (outcome, left, ⟨next, before ++ [.update first snapshot left outcome]⟩) := by
      simp [UpdateHook.heard, hrun]
    have hcall : hook.call first (snapshot, world) = .update first snapshot left outcome := by
      rw [UpdateHook.call, hrun]
    simp only [List.mapIdx_cons, hslots, runUpdates, hrun, hheard, ih, updateCalls_cons, hcall, List.append_assoc,
      List.singleton_append]

/-! ### Actions -/

/-- The calls of actions in slots that follow each other. -/
def actionCalls (first : Nat) (hooks : List (ActionHook ω S)) (snapshot : S) (world : ω) : List (HookCall S) :=
  (hooks.mapIdx fun slot hook =>
    hook.calls (first + slot) snapshot (ActionHook.act (hooks.take slot) snapshot world)).flatten

/-- How the conditions of actions in order end. -/
def actionConditions (hooks : List (ActionHook ω S)) (snapshot : S) (world : ω) : List ConditionOutcome :=
  hooks.mapIdx fun slot hook => hook.condition snapshot (ActionHook.act (hooks.take slot) snapshot world)

private theorem actionCalls_cons (first : Nat) (hook : ActionHook ω S) (rest : List (ActionHook ω S)) (snapshot : S)
    (world : ω) :
    actionCalls first (hook :: rest) snapshot world =
      hook.calls first snapshot world ++ actionCalls (first + 1) rest snapshot (hook.effect snapshot world) := by
  simp only [actionCalls, List.mapIdx_cons, List.flatten_cons, Nat.add_assoc, Nat.add_comm 1]
  rfl

private theorem actionConditions_cons (hook : ActionHook ω S) (rest : List (ActionHook ω S)) (snapshot : S)
    (world : ω) :
    actionConditions (hook :: rest) snapshot world =
      hook.condition snapshot world :: actionConditions rest snapshot (hook.effect snapshot world) := by
  rw [actionConditions, List.mapIdx_cons]
  rfl

private theorem actionCalls_warns (first : Nat) (hooks : List (ActionHook ω S)) (snapshot : S) (world : ω) :
    (actionCalls first hooks snapshot world).countP HookCall.warns = 0 := by
  induction hooks generalizing first world with
  | nil => rfl
  | cons hook rest ih =>
    rw [actionCalls_cons, List.countP_append, ih, ActionHook.calls]
    cases hook.condition snapshot world <;> rfl

private theorem runAction_eq (slot : Nat) (hook : ActionHook ω S) (summary : PassSummary) (snapshot : S) (world : ω) :
    let calls := hook.calls slot snapshot world
    runAction hook summary snapshot world =
      (⟨summary.warnings, summary.panics + (calls.countP HookCall.panics +
          if hook.condition snapshot world = .panicked then 1 else 0),
        summary.actions ++ calls.filterMap HookCall.finished?⟩, hook.effect snapshot world) := by
  rw [runAction, ActionHook.calls, ActionHook.effect]
  cases hcondition : hook.condition snapshot world with
  | fails => simp
  | panicked => simp
  | holds =>
    rcases hexecute : hook.execute snapshot world with ⟨outcome, next⟩
    cases outcome <;> simp [HookCall.panics, HookCall.finished?]

private theorem runActions_eq (first : Nat) (hooks : List (ActionHook ω S)) (summary : PassSummary) (snapshot : S)
    (world : ω) :
    let calls := actionCalls first hooks snapshot world
    runActions hooks summary snapshot world =
      (⟨summary.warnings, summary.panics + (calls.countP HookCall.panics +
          (actionConditions hooks snapshot world).count .panicked),
        summary.actions ++ calls.filterMap HookCall.finished?⟩, ActionHook.act hooks snapshot world) := by
  induction hooks generalizing first summary world with
  | nil => simp [runActions, actionCalls, actionConditions, ActionHook.act]
  | cons hook rest ih =>
    simp only [runActions, runAction_eq first, ih (first + 1), actionCalls_cons, actionConditions_cons,
      List.countP_append, List.filterMap_append, List.append_assoc, List.count_cons, beq_iff_eq]
    have hpanics (a b c d e : Nat) : a + (b + c) + (d + e) = a + (b + d + (e + c)) := by omega
    rw [hpanics]
    rfl

private theorem runAction_heard (slot : Nat) (hook : ActionHook ω S) (summary : PassSummary) (snapshot : S) (world : ω)
    (before : List (HookCall S)) :
    let (summary', world') := runAction hook summary snapshot world
    runAction (hook.heard slot) summary snapshot ⟨world, before⟩ =
      (summary', ⟨world', before ++ hook.calls slot snapshot world⟩) := by
  have hcondition : (hook.heard slot).condition snapshot ⟨world, before⟩ = hook.condition snapshot world := rfl
  rw [runAction, runAction, hcondition, ActionHook.calls]
  cases hook.condition snapshot world with
  | fails => simp
  | panicked => simp
  | holds =>
    rcases hexecute : hook.execute snapshot world with ⟨outcome, next⟩
    cases outcome <;> simp [ActionHook.heard, hexecute]

private theorem runActions_heard (first : Nat) (hooks : List (ActionHook ω S)) (summary : PassSummary) (snapshot : S)
    (world : ω) (before : List (HookCall S)) :
    let (summary', world') := runActions hooks summary snapshot world
    runActions (hooks.mapIdx fun slot hook => hook.heard (first + slot)) summary snapshot ⟨world, before⟩ =
      (summary', ⟨world', before ++ actionCalls first hooks snapshot world⟩) := by
  induction hooks generalizing first summary world before with
  | nil => simp [runActions, actionCalls]
  | cons hook rest ih =>
    have hslots : (fun slot (hook : ActionHook ω S) => hook.heard (first + (slot + 1))) =
        fun slot hook => hook.heard (first + 1 + slot) := by
      simp only [Nat.add_assoc, Nat.add_comm 1]
    have hfirst := runAction_heard first hook summary snapshot world before
    simp only [List.mapIdx_cons, hslots, Nat.add_zero, runActions, hfirst, ih, actionCalls_cons, List.append_assoc]
    rw [runAction_eq first]

/-! ### Passes -/

section Pass

variable (loop : MissionLoop ω S) (world : ω)

private theorem filled_all :
    UpdateHook.fill loop.updates (loop.initial, world) = loop.filled world loop.updates.length := by
  rw [filled, List.take_length]

private theorem acted_all :
    ActionHook.act loop.actions (loop.snapshot world) (loop.filled world loop.updates.length).2 =
    loop.acted world loop.actions.length := by
  rw [acted, List.take_length]

private theorem conditions_eq : loop.conditions world =
    actionConditions loop.actions (loop.snapshot world) (loop.filled world loop.updates.length).2 := rfl

private theorem calls_eq : loop.calls world = updateCalls 0 loop.updates (loop.initial, world) ++
    actionCalls 0 loop.actions (loop.snapshot world) (loop.filled world loop.updates.length).2 ++ [.notify] := by
  simp only [calls, updateCalls, actionCalls, Nat.zero_add]
  rfl

/-- The summary of a pass is read off its calls and the ends of the conditions, and the world is what the hooks make of
it when nobody cares how they end. -/
theorem runOnce_eq :
    let summary : PassSummary :=
      ⟨(loop.calls world).countP HookCall.warns,
        (loop.calls world).countP HookCall.panics + (loop.conditions world).count .panicked,
        (loop.calls world).filterMap HookCall.finished?⟩
    loop.runOnce world = (summary, loop.record summary (loop.notify (loop.acted world loop.actions.length))) := by
  have hupdates : (updateCalls 0 loop.updates (loop.initial, world)).filterMap HookCall.finished? = [] :=
    updateCalls_finished 0 loop.updates _
  have hactions := actionCalls_warns 0 loop.actions (loop.snapshot world) (loop.filled world loop.updates.length).2
  have hnotify : [(HookCall.notify : HookCall S)].filterMap HookCall.finished? = [] := rfl
  simp only [runOnce, runUpdates_eq 0, runActions_eq 0, filled_all]
  simp only [← snapshot.eq_1 loop world, acted_all, calls_eq, conditions_eq, PassSummary.empty, List.countP_append,
    List.filterMap_append, hupdates, hactions, hnotify, Nat.add_assoc, List.append_nil]
  simp [HookCall.warns, HookCall.panics]

/-- What no hook breaks, whether it panics or not, holds after a pass. -/
theorem invariant_runOnce {motive : ω → Prop}
    (update : ∀ hook ∈ loop.updates, ∀ snapshot world, motive world → motive (hook.run snapshot world).2.2)
    (action : ∀ hook ∈ loop.actions, ∀ snapshot world, motive world → motive (hook.execute snapshot world).2)
    (notify : ∀ world, motive world → motive (loop.notify world))
    (record : ∀ summary world, motive world → motive (loop.record summary world)) (h : motive world) :
    motive (loop.runOnce world).2 := by
  have hfill : motive (UpdateHook.fill loop.updates (loop.initial, world)).2 :=
    List.foldlRecOn (motive := fun state : S × ω => motive state.2) loop.updates _ h
      fun state hstate hook hmem => update hook hmem state.1 state.2 hstate
  rw [filled_all] at hfill
  have hact : motive (loop.acted world loop.actions.length) := by
    rw [← acted_all]
    refine List.foldlRecOn loop.actions _ hfill fun world hworld hook hmem => ?_
    rw [ActionHook.effect_eq_ite]
    split
    · exact action hook hmem _ world hworld
    · exact hworld
  rw [runOnce_eq]
  exact record _ _ (notify _ hact)

theorem runOnce_heard (before : List (HookCall S)) :
    let pass := loop.runOnce world
    loop.heard.runOnce ⟨world, before⟩ = (pass.1, ⟨pass.2, before ++ loop.calls world⟩) := by
  have hupdates := runUpdates_heard 0 loop.updates .empty loop.initial world before
  obtain ⟨filled, hfilled⟩ : ∃ filled, runUpdates loop.updates .empty loop.initial world =
      (filled, loop.snapshot world, (loop.filled world loop.updates.length).2) :=
    ⟨_, (runUpdates_eq 0 loop.updates .empty loop.initial world).trans (by rw [filled_all]; rfl)⟩
  have hactions := runActions_heard 0 loop.actions filled (loop.snapshot world)
    (loop.filled world loop.updates.length).2 (before ++ updateCalls 0 loop.updates (loop.initial, world))
  simp only [Nat.zero_add, hfilled] at hupdates hactions
  simp only [runOnce, hfilled, heard, hupdates, hactions, calls_eq, List.append_assoc]

private theorem iterate_heard (n : Nat) :
    let worldAt (k : Nat) := (fun world => (loop.runOnce world).2)^[k] world
    (fun heard => (loop.heard.runOnce heard).2)^[n] ⟨world, []⟩ =
      ⟨worldAt n, (List.range n).flatMap fun k => loop.calls (worldAt k)⟩ := by
  intro worldAt
  induction n with
  | zero => rfl
  | succ n ih =>
    have hlast := runOnce_heard loop (worldAt n) ((List.range n).flatMap fun k => loop.calls (worldAt k))
    have hnext : worldAt (n + 1) = (loop.runOnce (worldAt n)).2 :=
      Function.iterate_succ_apply' (fun world => (loop.runOnce world).2) n world
    rw [Function.iterate_succ_apply', ih, hlast, hnext, List.range_succ, List.flatMap_append,
      List.flatMap_singleton]

end Pass

/-! ### Hooks that end differently -/

/-- The hooks of two loops do the same, but one may panic where the other returns. -/
structure SameEffects (loop other : MissionLoop ω S) : Prop where
  initial : loop.initial = other.initial
  updates : List.Forall₂ UpdateHook.SameEffect loop.updates other.updates
  actions : List.Forall₂ ActionHook.SameEffect loop.actions other.actions

private theorem updateCalls_calm {hooks others : List (UpdateHook ω S)}
    (h : List.Forall₂ UpdateHook.SameEffect hooks others)
    (first : Nat) (state : S × ω) :
    (updateCalls first hooks state).map HookCall.calm = (updateCalls first others state).map HookCall.calm ∧
      UpdateHook.fill hooks state = UpdateHook.fill others state := by
  induction h generalizing first state with
  | nil => exact ⟨rfl, rfl⟩
  | @cons hook other rest others hsame _ ih =>
    have hrun := hsame state.1 state.2
    obtain ⟨hcalls, hfill⟩ := ih (first + 1) (hook.run state.1 state.2).2
    refine ⟨?_, ?_⟩
    · rw [updateCalls_cons, updateCalls_cons, List.map_cons, List.map_cons, hcalls, ← hrun]
      simp only [UpdateHook.call, HookCall.calm, hrun]
    · rw [UpdateHook.fill, List.foldl_cons, UpdateHook.fill, List.foldl_cons, ← hrun]
      exact hfill

private theorem actionCalls_calm {hooks others : List (ActionHook ω S)}
    (h : List.Forall₂ ActionHook.SameEffect hooks others)
    (first : Nat) (snapshot : S) (world : ω) :
    (actionCalls first hooks snapshot world).map HookCall.calm =
        (actionCalls first others snapshot world).map HookCall.calm ∧
      ActionHook.act hooks snapshot world = ActionHook.act others snapshot world := by
  induction h generalizing first world with
  | nil => exact ⟨rfl, rfl⟩
  | @cons hook other rest others hsame _ ih =>
    have heffect : hook.effect snapshot world = other.effect snapshot world := hsame.effect_eq snapshot world
    obtain ⟨hcalls, hact⟩ := ih (first + 1) (hook.effect snapshot world)
    refine ⟨?_, ?_⟩
    · rw [actionCalls_cons, actionCalls_cons, List.map_append, List.map_append, hcalls,
        hsame.calls_calm first snapshot world, heffect]
    · rw [ActionHook.act, List.foldl_cons, ActionHook.act, List.foldl_cons, ← heffect]
      exact hact

/-- Which hooks are called, and what each sees and leaves, does not depend on how they end. -/
theorem SameEffects.calls_calm {loop other : MissionLoop ω S} (h : loop.SameEffects other) (world : ω) :
    (loop.calls world).map HookCall.calm = (other.calls world).map HookCall.calm ∧
      loop.acted world loop.actions.length = other.acted world other.actions.length := by
  obtain ⟨hupdates, hfill⟩ := updateCalls_calm h.updates 0 (loop.initial, world)
  have hfilled : loop.filled world loop.updates.length = other.filled world other.updates.length := by
    rw [← filled_all, ← filled_all, hfill, h.initial]
  have hsnapshot : loop.snapshot world = other.snapshot world := congrArg Prod.fst hfilled
  obtain ⟨hactions, hact⟩ := actionCalls_calm h.actions 0 (loop.snapshot world)
    (loop.filled world loop.updates.length).2
  refine ⟨?_, ?_⟩
  · rw [calls_eq, calls_eq, List.map_append, List.map_append, List.map_append, List.map_append, hupdates, hactions,
      h.initial, hsnapshot, hfilled]
  · rw [← acted_all, ← acted_all, hact, hsnapshot, hfilled]

/-- In any number of passes, whatever the hooks do and whether they return or panic.  A pass calls every update once, in
order, each on what the one before it left, the first on the initial snapshot; then each action whose condition holds,
on the snapshot that the last update left; then the observer.  The summary counts the warnings and the panics, and lists
the actions that ran to their end.  Hooks that do the same without panicking are called just so. -/
theorem passes_call_hooks (loop : MissionLoop ω S) (world : ω) (n : Nat) :
    let worldAt (k : Nat) := (fun world => (loop.runOnce world).2)^[k] world
    let passes := (fun heard => (loop.heard.runOnce heard).2)^[n] ⟨world, []⟩
    passes.world = worldAt n ∧ passes.calls = ((List.range n).flatMap fun k => loop.calls (worldAt k)) ∧
      ∀ world,
        let pass := loop.runOnce world
        let calls := loop.calls world
        (∀ before, loop.heard.runOnce ⟨world, before⟩ = (pass.1, ⟨pass.2, before ++ calls⟩)) ∧
          pass.1.warnings = calls.countP HookCall.warns ∧
          pass.1.panics = calls.countP HookCall.panics + (loop.conditions world).count .panicked ∧
          pass.1.actions = calls.filterMap HookCall.finished? ∧
          pass.2 = loop.record pass.1 (loop.notify (loop.acted world loop.actions.length)) ∧
          ∀ other, loop.SameEffects other →
            (other.calls world).map HookCall.calm = calls.map HookCall.calm ∧
              other.acted world other.actions.length = loop.acted world loop.actions.length := by
  intro worldAt passes
  have hpasses : passes = ⟨worldAt n, _⟩ := iterate_heard loop world n
  refine ⟨congrArg HeardWorld.world hpasses, congrArg HeardWorld.calls hpasses, fun world => ?_⟩
  intro pass calls
  have hpass : pass = _ := runOnce_eq loop world
  refine ⟨runOnce_heard loop world, ?_, ?_, ?_, ?_, fun other h => (h.calls_calm world).imp Eq.symm Eq.symm⟩
  all_goals rw [hpass]

end MissionLoop

end Spacecraft
