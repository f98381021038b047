import Mathlib.Data.List.DropRight
import Spacecraft.Experiment.Passes

/-!
# Experiments among interleaved threads

The experiment thread, the mission thread and any number of operators share one controller and take turns in any order.
A turn (`Move`) is one access to what they share: a request is two turns (it looks whether a run is in progress, and it
is filed), a shutdown is two, and a mission pass has one for each condition, one for each action that runs, and one or
two at its end.  What matters of a turn is noted (`ExperimentNote`): the calls to experiments with their answers, what
the operators ask for, and what the passes do to the experiment thread.

The single accesses are those of which the operations of the controller are made (`request_eq`, `shutDown_eq`,
`notifyPass_eq`).  Without interruption the experiment thread settles (`host_after_thread`) and the mission thread runs
a pass of the mission loop (`exists_after_mission`).
-/

namespace Spacecraft

/-! ### Single accesses -/

namespace ExperimentController

/-- File a request. -/
def file (code : UInt8) (c : ExperimentController) : ExperimentController :=
  { c with info := { c.info with requested := some code } }

/-- The first half of a shutdown: let everybody know. -/
def raiseShutdown (c : ExperimentController) : ExperimentController :=
  { c with events := { c.events with shutdown := true } }

/-- The second half of a shutdown: close the mailbox. -/
def closeQueue (c : ExperimentController) : ExperimentController := { c with queue := c.queue.close }

/-- The end of a pass is about to let a waiting experiment go on. -/
def releases (c : ExperimentController) : Bool := !c.kicked && !c.pendingStart && c.inProgress

/-- The first half of the end of a pass: forget what the pass did. -/
def closePass (c : ExperimentController) : ExperimentController := { c with kicked := false, pendingStart := false }

/-- The second half of the end of a pass. -/
def release (c : ExperimentController) : ExperimentController :=
  { c with events := { c.events with iterationStarted := true } }

theorem request_eq (code : UInt8) (c : ExperimentController) :
    c.request code = if c.inProgress then (false, c) else (true, c.file code) := rfl

theorem shutDown_eq (c : ExperimentController) : c.shutDown = c.raiseShutdown.closeQueue := rfl

theorem notifyPass_eq (c : ExperimentController) :
    c.notifyPass = if c.releases then c.closePass.release else c.closePass := by
  unfold notifyPass releases
  cases h : !c.kicked && !c.pendingStart && c.inProgress <;> simp [closePass, release]

end ExperimentController

/-! ### Notes -/

theorem rtakeWhile_append_of_all {α : Type} {p : α → Bool} (l : List α) {more : List α} (h : ∀ a ∈ more, p a = true) :
    (l ++ more).rtakeWhile p = l.rtakeWhile p ++ more := by
  have hmore : ∀ a ∈ more.reverse, p a = true := fun a ha => h a (List.mem_reverse.1 ha)
  rw [List.rtakeWhile, List.reverse_append, List.takeWhile_append_of_pos hmore, List.reverse_append,
    List.reverse_reverse, List.rtakeWhile]

/-- A call to an experiment, with the answer or the reason. -/
inductive ExperimentCall (σ : Type) where
  | start (experiment : Experiment σ) (result : StartResult)
  | iteration (experiment : Experiment σ) (result : IterationResult)
  | stop (experiment : Experiment σ) (result : IterationResult)

/-- What can happen to a run besides calls. -/
inductive ExperimentMark where
  /-- The thread cleared old flags before a run. -/
  | prepared
  /-- A wait for the next pass ended. -/
  | resumed
  | abort
  | shutdown
  /-- A pass began. -/
  | began
  /-- A pass handed a request to the thread. -/
  | handed (code : UInt8)
  /-- A pass let a waiting experiment go on. -/
  | signalled
deriving DecidableEq, Repr

/-- What is noted of a turn. -/
inductive ExperimentNote (σ : Type) where
  | call (call : ExperimentCall σ)
  | mark (mark : ExperimentMark)

/-- The mark of a call of an operator. -/
def ExperimentController.Call.mark? : ExperimentController.Call → Option ExperimentMark
  | .request _ => none
  | .abort => some .abort
  | .shutdown => some .shutdown

namespace ExperimentNote

variable {σ : Type}

/-- The call in a note. -/
def call? : ExperimentNote σ → Option (ExperimentCall σ)
  | call c => some c
  | mark _ => none

/-- The mark in a note. -/
def mark? : ExperimentNote σ → Option ExperimentMark
  | call _ => none
  | mark m => some m

/-- The calls to experiments among notes. -/
def calls (notes : List (ExperimentNote σ)) : List (ExperimentCall σ) := notes.filterMap call?

/-- The marks among notes. -/
def marks (notes : List (ExperimentNote σ)) : List ExperimentMark := notes.filterMap mark?

/-- A note that does not belong to an earlier run than those after it. -/
def continues (n : ExperimentNote σ) : Bool := decide (n.mark? ≠ some .prepared)

/-- The notes since old flags were last cleared for a run. -/
def thisRun (notes : List (ExperimentNote σ)) : List (ExperimentNote σ) := notes.rtakeWhile continues

@[simp]
theorem calls_append (notes more : List (ExperimentNote σ)) : calls (notes ++ more) = calls notes ++ calls more :=
  List.filterMap_append

@[simp]
theorem marks_append (notes more : List (ExperimentNote σ)) : marks (notes ++ more) = marks notes ++ marks more :=
  List.filterMap_append

/-- The notes of an iteration hold one call. -/
theorem calls_call_marks (c : ExperimentCall σ) (asked : List ExperimentMark) :
    calls (.call c :: asked.map .mark) = [c] := by
  simp [calls, call?, List.filterMap_map, Function.comp_def]

theorem thisRun_prepared (notes : List (ExperimentNote σ)) : thisRun (notes ++ [.mark .prepared]) = [] :=
  List.rtakeWhile_concat_neg _ _ _ (by simp [continues, mark?])

/-- Notes among which no new run begins go to the run that is on. -/
theorem thisRun_append (notes : List (ExperimentNote σ)) {more : List (ExperimentNote σ)}
    (h : .prepared ∉ marks more) : thisRun (notes ++ more) = thisRun notes ++ more := by
  refine rtakeWhile_append_of_all notes fun n hn => decide_eq_true fun hmark => h ?_
  exact List.mem_filterMap.2 ⟨n, hn, hmark⟩

end ExperimentNote

/-! ### The threads -/

/-- An action of a mission pass. -/
inductive PassAction (σ : Type) where
  /-- Hand a request over. -/
  | start
  /-- Let a waiting experiment go on. -/
  | kick
  /-- Something that leaves the experiments alone. -/
  | other (name : String) (change : σ → σ)

/-- The hook of an action. -/
def PassAction.hook {σ : Type} : PassAction σ → ActionHook (ExperimentHost σ) Unit
  | start => ExperimentHost.startAction
  | kick => ExperimentHost.kickAction
  | other name change =>
    { name := name
      condition := fun _ _ => .holds
      execute := fun _ host => (.done, { host with world := change host.world }) }

/-- The experiments, the actions of a mission pass, and whether the controller observes the end of a pass. -/
structure ExperimentSite (σ : Type) where
  laboratory : Laboratory σ
  actions : List (PassAction σ)
  observing : Bool

/-- Where the mission thread stands. -/
inductive MissionPlace (σ : Type) where
  /-- Between two passes. -/
  | between
  /-- These actions are left; the condition of the first one comes next, or the end of the pass. -/
  | choosing (rest : List (PassAction σ))
  /-- The condition of an action held. -/
  | acting (action : PassAction σ) (rest : List (PassAction σ))
  /-- The end of the pass is to let a waiting experiment go on. -/
  | releasing

/-- The controller, the threads and the operators. -/
structure ExperimentSystem (σ : Type) where
  host : ExperimentHost σ
  mission : MissionPlace σ
  /-- Requests that found no run in progress and are to be filed. -/
  admitted : List UInt8

/-- One turn of somebody. -/
inductive Move (σ : Type) where
  /-- The next step of the experiment thread, unless it is blocked. -/
  | thread
  /-- The next step of the mission thread, which runs one pass after another. -/
  | mission
  /-- A request looks whether a run is in progress. -/
  | ask (code : UInt8)
  /-- A request that found no run in progress is filed. -/
  | file (code : UInt8)
  | abort
  /-- The first half of a shutdown. -/
  | shutdown
  /-- The second half of a shutdown. -/
  | close
  /-- The world changes. -/
  | disturb (change : σ → σ)

namespace ExperimentHost

variable {σ : Type}

/-- What is noted of the next step of the thread. -/
def notes (host : ExperimentHost σ) : List (ExperimentNote σ) :=
  match host.thread with
  | .preparing _ => [.mark .prepared]
  | .starting e => [.call (.start e (e.start host.controller host.world).1)]
  | .iterating e =>
    let (result, calls, _) := e.iterate host.controller host.world
    .call (.iteration e result) :: (calls.filterMap ExperimentController.Call.mark?).map .mark
  | .pausing _ => if host.controller.released then [.mark .resumed] else []
  | .stopping e result => [.call (.stop e result)]
  | _ => []

end ExperimentHost

namespace ExperimentSystem

variable {σ : Type}

/-- A fresh controller and a thread that waits for its first code. -/
def initial (world : σ) : ExperimentSystem σ := ⟨⟨.initial, .receiving, world⟩, .between, []⟩

/-- Change the controller. -/
def control (f : ExperimentController → ExperimentController) (system : ExperimentSystem σ) : ExperimentSystem σ :=
  { system with host := system.host.control f }

/-- The next step of the mission thread. -/
def missionStep (site : ExperimentSite σ) (system : ExperimentSystem σ) : ExperimentSystem σ :=
  match system.mission with
  | .between => { system with mission := .choosing site.actions }
  | .choosing (action :: rest) =>
    match action.hook.condition () system.host with
    | .holds => { system with mission := .acting action rest }
    | .fails | .panicked => { system with mission := .choosing rest }
  | .acting action rest =>
    { system with host := (action.hook.execute () system.host).2, mission := .choosing rest }
  | .choosing [] =>
    if site.observing then
      { system.control .closePass with mission := if system.host.controller.releases then .releasing else .between }
    else { system with mission := .between }
  | .releasing => { system.control .release with mission := .between }

/-- The system after a turn. -/
def perform (site : ExperimentSite σ) (move : Move σ) (system : ExperimentSystem σ) : ExperimentSystem σ :=
  match move with
  | .thread =>
    match system.host.step site.laboratory with
    | some host => { system with host }
    | none => system
  | .mission => system.missionStep site
  | .ask code =>
    if system.host.controller.inProgress then system else { system with admitted := code :: system.admitted }
  | .file code =>
    if code ∈ system.admitted then { system.control (.file code) with admitted := system.admitted.erase code }
    else system
  | .abort => system.control .abort
  | .shutdown => system.control .raiseShutdown
  | .close => if system.host.controller.events.shutdown then system.control .closeQueue else system
  | .disturb change => { system with host := { system.host with world := change system.host.world } }

/-- What is noted of a step of the mission thread. -/
def missionMark? (system : ExperimentSystem σ) : Option ExperimentMark :=
  match system.mission with
  | .between => some .began
  | .acting .start _ => system.host.controller.info.requested.map .handed
  | .acting .kick _ | .releasing => some .signalled
  | .acting (.other _ _) _ | .choosing _ => none

/-- What is noted of a turn. -/
def noted (move : Move σ) (system : ExperimentSystem σ) : List (ExperimentNote σ) :=
  match move with
  | .thread => system.host.notes
  | .mission => (system.missionMark?.map .mark).toList
  | .abort => [.mark .abort]
  | .shutdown => [.mark .shutdown]
  | .ask _ | .file _ | .close | .disturb _ => []

/-- The system after turns in order. -/
def after (site : ExperimentSite σ) (schedule : List (Move σ)) (system : ExperimentSystem σ) : ExperimentSystem σ :=
  schedule.foldl (fun system move => system.perform site move) system

/-- What is noted of turns in order. -/
def history (site : ExperimentSite σ) : List (Move σ) → ExperimentSystem σ → List (ExperimentNote σ)
  | [], _ => []
  | move :: schedule, system => system.noted move ++ history site schedule (system.perform site move)

end ExperimentSystem

namespace ExperimentSystem

variable {σ : Type} (site : ExperimentSite σ)

theorem after_append (schedule more : List (Move σ)) (system : ExperimentSystem σ) :
    system.after site (schedule ++ more) = (system.after site schedule).after site more :=
  List.foldl_append

theorem after_concat (schedule : List (Move σ)) (move : Move σ) (system : ExperimentSystem σ) :
    system.after site (schedule ++ [move]) = (system.after site schedule).perform site move :=
  after_append site schedule [move] system

theorem history_append (schedule more : List (Move σ)) (system : ExperimentSystem σ) :
    system.history site (schedule ++ more) =
      system.history site schedule ++ (system.after site schedule).history site more := by
  induction schedule generalizing system with
  | nil => rfl
  | cons move schedule ih =>
    rw [List.cons_append, history, history, ih, List.append_assoc]
    rfl

theorem history_concat (schedule : List (Move σ)) (move : Move σ) (system : ExperimentSystem σ) :
    system.history site (schedule ++ [move]) =
      system.history site schedule ++ (system.after site schedule).noted move := by
  rw [history_append, history, history, List.append_nil]

/-! ### Schedules without interruption -/

/-- The thread alone goes on until it blocks. -/
theorem host_after_thread (n : Nat) (system : ExperimentSystem σ) :
    (system.after site (List.replicate n .thread)).host = system.host.settle site.laboratory n := by
  induction n generalizing system with
  | zero => rfl
  | succ n ih =>
    rw [List.replicate_succ, after, List.foldl_cons, ← after, ExperimentHost.settle, ih, perform]
    cases h : system.host.step site.laboratory with
    | some next => rfl
    | none =>
      cases n with
      | zero => rfl
      | succ n =>
        show system.host.settle site.laboratory (n + 1) = system.host
        rw [ExperimentHost.settle, h]

/-- An action that nobody interrupts. -/
private theorem exists_after_action (action : PassAction σ) (rest : List (PassAction σ)) (summary : PassSummary)
    (host : ExperimentHost σ) (admitted : List UInt8) :
    ∃ n, (ExperimentSystem.mk host (.choosing (action :: rest)) admitted).after site (List.replicate n .mission) =
      ⟨(MissionLoop.runAction action.hook summary () host).2, .choosing rest, admitted⟩ := by
  rw [MissionLoop.runAction]
  cases hcondition : action.hook.condition () host with
  | fails => exact ⟨1, by simp [after, perform, missionStep, hcondition]⟩
  | panicked => exact ⟨1, by simp [after, perform, missionStep, hcondition]⟩
  | holds =>
    refine ⟨2, ?_⟩
    have hafter : (ExperimentSystem.mk host (.choosing (action :: rest)) admitted).after site
        (List.replicate 2 .mission) = ⟨(action.hook.execute () host).2, .choosing rest, admitted⟩ := by
      simp [after, perform, missionStep, hcondition, List.replicate_succ]
    rw [hafter]
    obtain ⟨outcome, next⟩ := action.hook.execute () host
    cases outcome <;> rfl

/-- The end of a pass that nobody interrupts. -/
private theorem exists_after_end (host : ExperimentHost σ) (admitted : List UInt8) :
    ∃ n, (ExperimentSystem.mk host (.choosing []) admitted).after site (List.replicate n .mission) =
      ⟨if site.observing then host.control .notifyPass else host, .between, admitted⟩ := by
  cases hobserving : site.observing with
  | false => exact ⟨1, by simp [after, perform, missionStep, hobserving]⟩
  | true =>
    cases hreleases : host.controller.releases with
    | false =>
      refine ⟨1, ?_⟩
      simp [after, perform, missionStep, control, ExperimentHost.control, hobserving, hreleases,
        ExperimentController.notifyPass_eq]
    | true =>
      refine ⟨2, ?_⟩
      simp [after, perform, missionStep, control, ExperimentHost.control, hobserving, hreleases,
        ExperimentController.notifyPass_eq, List.replicate_succ]

/-- The rest of a pass that nobody interrupts. -/
private theorem exists_after_choosing (rest : List (PassAction σ)) (summary : PassSummary) (host : ExperimentHost σ)
    (admitted : List UInt8) :
    let loop := ExperimentHost.missionLoop (site.actions.map PassAction.hook) site.observing
    ∃ n, (ExperimentSystem.mk host (.choosing rest) admitted).after site (List.replicate n .mission) =
      ⟨loop.notify (MissionLoop.runActions (rest.map PassAction.hook) summary () host).2, .between, admitted⟩ := by
  induction rest generalizing summary host with
  | nil => exact exists_after_end site host admitted
  | cons action rest ih =>
    obtain ⟨n, hn⟩ := exists_after_action site action rest summary host admitted
    obtain ⟨m, hm⟩ := ih (MissionLoop.runAction action.hook summary () host).1
      (MissionLoop.runAction action.hook summary () host).2
    exact ⟨n + m, by rw [List.replicate_add, after_append, hn, hm]; rfl⟩

/-- A pass that nobody interrupts is a pass of the mission loop. -/
theorem exists_after_mission {system : ExperimentSystem σ} (h : system.mission = .between) :
    ∃ n, system.after site (List.replicate n .mission) =
      { system with host := ((ExperimentHost.missionLoop (site.actions.map PassAction.hook) site.observing).runOnce
        system.host).2 } := by
  obtain ⟨host, mission, admitted⟩ := system
  cases h
  obtain ⟨n, hn⟩ := exists_after_choosing site site.actions .empty host admitted
  exact ⟨n + 1, hn⟩

end ExperimentSystem

end Spacecraft
