import Spacecraft.Proofs.Experiment.Ending
import Spacecraft.Proofs.Experiment.Passes

/-!
# Operations one after another

Requests, aborts and passes as wholes (`ExperimentOperation`).  An operation is carried out by turns of its own, and
the experiment thread may take turns among them (`CarryOut`); the next operation comes when the thread rests (`Trial`).
Nothing comes of a turn of a thread that rests, so a request (`after_request`) and an abort (`after_abort`) are the same
whatever the turns are.  For a pass, `pass_invariant` is the induction over its turns.
-/

namespace Spacecraft

open ExperimentNote

/-- What operators and the mission loop do. -/
inductive ExperimentOperation where
  | request (code : UInt8)
  | abort
  | pass
deriving DecidableEq, Repr

/-- An operation that was carried out, with the answer to a request. -/
inductive ExperimentDeed where
  | request (code : UInt8) (accepted : Bool)
  | abort
  | pass
deriving DecidableEq, Repr

/-- The operation without the answer. -/
def ExperimentDeed.operation : ExperimentDeed → ExperimentOperation
  | request code _ => .request code
  | abort => .abort
  | pass => .pass

/-- The operation with the answer that the controller gives to it. -/
def ExperimentOperation.deed (c : ExperimentController) : ExperimentOperation → ExperimentDeed
  | request code => .request code (c.request code).1
  | abort => .abort
  | pass => .pass

@[simp]
theorem ExperimentOperation.operation_deed (c : ExperimentController) (operation : ExperimentOperation) :
    (operation.deed c).operation = operation := by
  cases operation <;> rfl

/-- The mission loop hands a request over, then lets a waiting experiment go on, and the controller observes the end of
the pass.  -/
structure ExperimentSite.Standard {σ : Type} (site : ExperimentSite σ) : Prop where
  actions : site.actions = [.start, .kick]
  observing : site.observing = true

/-- The turns of all but the experiment thread. -/
def ownTurns {σ : Type} (turns : List (Move σ)) : List (Move σ) := turns.filter fun move => !move.isThread

namespace ExperimentSystem

variable {σ : Type} (site : ExperimentSite σ)

/-! ### A thread that rests -/

/-- The experiment thread is blocked. -/
def Resting (system : ExperimentSystem σ) : Prop := system.host.step site.laboratory = none

namespace Resting

variable {site} {system : ExperimentSystem σ}

theorem perform_thread (h : system.Resting site) : system.perform site .thread = system := by
  rw [perform, show system.host.step site.laboratory = none from h]

theorem noted_thread (h : system.Resting site) : system.noted .thread = [] := ExperimentHost.notes_of_blocked h

theorem after_thread (h : system.Resting site) (n : Nat) : system.after site (List.replicate n .thread) = system := by
  induction n with
  | zero => rfl
  | succ n ih => rw [List.replicate_succ', after_concat, ih, h.perform_thread]

theorem history_thread (h : system.Resting site) (n : Nat) : system.history site (List.replicate n .thread) = [] := by
  induction n with
  | zero => rfl
  | succ n ih => rw [List.replicate_succ', history_concat, ih, h.after_thread, h.noted_thread, List.append_nil]

/-- A thread that rests depends on nothing but what it waits for. -/
theorem of_host {next : ExperimentSystem σ} (h : system.Resting site)
    (hthread : next.host.thread = system.host.thread) (hqueue : next.host.controller.queue = system.host.controller.queue)
    (hevents : next.host.controller.events = system.host.controller.events) : next.Resting site := by
  obtain ⟨⟨c, thread, w⟩, mission, admitted⟩ := system
  obtain ⟨⟨c', thread', w'⟩, mission', admitted'⟩ := next
  obtain rfl : thread' = thread := hthread
  obtain hqueue : c'.queue = c.queue := hqueue
  obtain hevents : c'.events = c.events := hevents
  unfold Resting at h ⊢
  rcases ExperimentHost.blocked_cases h with hthread | hthread | ⟨hthread, hwaiting⟩ | ⟨e, hthread, hreleased⟩
  · obtain rfl : thread' = .unborn := hthread
    rfl
  · obtain rfl : thread' = .ended := hthread
    rfl
  · obtain rfl : thread' = .receiving := hthread
    simp only [ExperimentHost.step, hqueue, show c.queue.peek = .waiting from hwaiting]
  · obtain rfl : thread' = .pausing e := hthread
    have hsame : c'.released = c.released := by rw [ExperimentController.released, hevents, ExperimentController.released]
    simp only [ExperimentHost.step, hsame, show c.released = false from hreleased, Bool.false_eq_true, if_false]

private theorem perform_ask (h : system.Resting site) (code : UInt8) :
    (system.perform site (.ask code)).Resting site := by
  rw [perform]
  split
  · exact h
  · exact h.of_host rfl rfl rfl

private theorem perform_file (h : system.Resting site) (code : UInt8) :
    (system.perform site (.file code)).Resting site := by
  rw [perform]
  split
  · exact h.of_host rfl rfl rfl
  · exact h

end Resting

theorem resting_initial (world : σ) : (initial world).Resting site := rfl

/-- Turns of the thread alone change nothing but what the thread works on. -/
theorem after_threads (host : ExperimentHost σ) (mission : MissionPlace σ) (admitted : List UInt8) (n : Nat) :
    (ExperimentSystem.mk host mission admitted).after site (List.replicate n .thread) =
      ⟨host.settle site.laboratory n, mission, admitted⟩ := by
  rw [← host_after_thread site n ⟨host, mission, admitted⟩]
  induction n with
  | zero => rfl
  | succ n ih =>
    rw [List.replicate_succ', after_concat, ih, perform]
    split <;> rfl

/-! ### Carrying an operation out -/

/-- The turns carry an operation out, with turns of the experiment thread among them. -/
def CarryOut (system : ExperimentSystem σ) (turns : List (Move σ)) : ExperimentOperation → Prop
  | .request code => ownTurns turns = [.ask code, .file code]
  | .abort => ownTurns turns = [.abort]
  | .pass => (∀ move ∈ turns, move.isThread = true ∨ move.isMission = true) ∧
      (system.after site turns).mission = .between ∧ (marks (system.history site turns)).count .began = 1

/-- Operations that were carried out one after another, latest first, the thread at rest after each of them, and their
turns in order. -/
inductive Trial (start : ExperimentSystem σ) : List ExperimentDeed → List (Move σ) → Prop where
  | start : Trial start [] []
  | next {deeds : List ExperimentDeed} {before turns : List (Move σ)} (operation : ExperimentOperation) :
      Trial start deeds before → (start.after site before).CarryOut site turns operation →
      (start.after site (before ++ turns)).Resting site →
      Trial start (operation.deed (start.after site before).host.controller :: deeds) (before ++ turns)

/-! ### Requests and aborts -/

private theorem eq_replicate_of_ownTurns {turns : List (Move σ)} (h : ownTurns turns = []) :
    turns = List.replicate turns.length .thread := by
  rw [ownTurns, List.filter_eq_nil_iff] at h
  refine List.eq_replicate_iff.2 ⟨rfl, fun move hmove => ?_⟩
  have hthread := h move hmove
  cases move <;> first | rfl | exact absurd rfl hthread

/-- While the thread rests, the first turn of an operation comes as if it were the first turn of all. -/
private theorem Resting.after_first {system : ExperimentSystem σ} (hrest : system.Resting site)
    {turns rest : List (Move σ)}
    {move : Move σ} (h : ownTurns turns = move :: rest) :
    ∃ later, ownTurns later = rest ∧ system.after site turns = (system.perform site move).after site later ∧
      system.history site turns = system.noted move ++ (system.perform site move).history site later := by
  rw [ownTurns, List.filter_eq_cons_iff] at h
  obtain ⟨first, later, rfl, hfirst, -, hlater⟩ := h
  have hthreads : first = List.replicate first.length .thread := by
    refine eq_replicate_of_ownTurns (List.filter_eq_nil_iff.2 hfirst)
  refine ⟨later, hlater, ?_, ?_⟩
  · rw [after_append, hthreads, hrest.after_thread]
    rfl
  · rw [history_append, hthreads, hrest.after_thread, hrest.history_thread]
    rfl

/-- A request that is carried out while the thread rests: it is filed unless a run is in progress. -/
theorem after_request {system : ExperimentSystem σ} (hrest : system.Resting site) (hadmitted : system.admitted = [])
    {code : UInt8} {turns : List (Move σ)} (h : system.CarryOut site turns (.request code)) :
    system.after site turns = (if system.host.controller.inProgress then system else system.control (.file code)) ∧
      system.history site turns = [] := by
  obtain ⟨second, hsecond, hafter, hhistory⟩ := hrest.after_first site h
  have hasked := hrest.perform_ask code
  obtain ⟨third, hthird, hafter', hhistory'⟩ := hasked.after_first site hsecond
  have hfiled := hasked.perform_file code
  have hresult : (system.perform site (.ask code)).perform site (.file code) =
      if system.host.controller.inProgress then system else system.control (.file code) := by
    obtain ⟨host, mission, admitted⟩ := system
    obtain rfl : admitted = [] := hadmitted
    cases hprogress : host.controller.inProgress <;> simp [perform, control, hprogress]
  rw [eq_replicate_of_ownTurns hthird] at hafter' hhistory'
  rw [hafter, hafter', hfiled.after_thread, hresult, hhistory, hhistory', hfiled.history_thread]
  exact ⟨rfl, rfl⟩

/-- An abort that is carried out while the thread rests, and the turns of the thread that follow it. -/
theorem after_abort {system : ExperimentSystem σ} (hrest : system.Resting site) {turns : List (Move σ)}
    (h : system.CarryOut site turns .abort) :
    ∃ n, system.after site turns = (system.control .abort).after site (List.replicate n .thread) ∧
      system.history site turns =
        .mark .abort :: (system.control .abort).history site (List.replicate n .thread) := by
  obtain ⟨later, hlater, hafter, hhistory⟩ := hrest.after_first site h
  rw [eq_replicate_of_ownTurns hlater] at hafter hhistory
  exact ⟨later.length, hafter, hhistory⟩

/-! ### Passes -/

private theorem admitted_missionStep (system : ExperimentSystem σ) :
    (system.missionStep site).admitted = system.admitted := by
  obtain ⟨host, mission, admitted⟩ := system
  cases mission with
  | between | acting action rest | releasing => rfl
  | choosing rest =>
    cases rest with
    | nil =>
      simp only [missionStep]
      split <;> rfl
    | cons action rest =>
      rw [missionStep_choosing]

theorem began_not_mem_noted {system : ExperimentSystem σ} (h : system.mission ≠ .between) :
    .began ∉ marks (system.noted .mission) := by
  obtain ⟨host, mission, admitted⟩ := system
  cases mission with
  | between => exact absurd rfl h
  | choosing rest => exact List.not_mem_nil
  | acting action rest =>
    cases action with
    | start => cases hrequested : host.controller.info.requested <;> simp [noted, missionMark?, hrequested, marks, mark?]
    | kick => simp [noted, missionMark?, marks, mark?]
    | other name change => exact List.not_mem_nil
  | releasing => simp [noted, missionMark?, marks, mark?]

/-- The turns of a pass that has begun once at most: either they did nothing yet, or what holds at its beginning and is
kept by every step of the pass and every turn of the thread holds after them.  -/
private theorem pass_invariant_upTo {P : List (ExperimentNote σ) → ExperimentSystem σ → Prop}
    {system : ExperimentSystem σ} (hrest : system.Resting site) (hbetween : system.mission = .between)
    (hbegin : P [.mark .began] { system with mission := .choosing site.actions })
    (hmission : ∀ notes next, P notes next → next.mission ≠ .between →
      P (notes ++ next.noted .mission) (next.perform site .mission))
    (hthread : ∀ notes next, P notes next → P (notes ++ next.noted .thread) (next.perform site .thread))
    (turns : List (Move σ)) (hturns : ∀ move ∈ turns, move.isThread = true ∨ move.isMission = true)
    (hone : (marks (system.history site turns)).count .began ≤ 1) :
    (system.history site turns = [] ∧ system.after site turns = system) ∨
      ((marks (system.history site turns)).count .began = 1 ∧
        P (system.history site turns) (system.after site turns)) := by
  induction turns using List.reverseRecOn with
  | nil => exact Or.inl ⟨rfl, rfl⟩
  | append_singleton turns move ih =>
    rw [history_concat, marks_append, List.count_append] at hone ⊢
    rw [after_concat]
    have hbefore := ih (fun move hmove => hturns move (List.mem_append_left _ hmove)) (by omega)
    rcases hturns move (List.mem_append_right _ (List.mem_singleton_self _)) with hmove | hmove <;>
      cases move <;> cases hmove
    · rcases hbefore with ⟨hhistory, hafter⟩ | ⟨hbegan, hP⟩
      · rw [hhistory, hafter, hrest.noted_thread, hrest.perform_thread]
        exact Or.inl ⟨rfl, rfl⟩
      · have hnone : .began ∉ marks ((system.after site turns).noted .thread) := fun hmem =>
          nomatch (offPass_perform site rfl (system.after site turns)).2.marks _ hmem
        rw [List.count_eq_zero.2 hnone]
        exact Or.inr ⟨hbegan, hthread _ _ hP⟩
    · refine Or.inr ?_
      rcases hbefore with ⟨hhistory, hafter⟩ | ⟨hbegan, hP⟩
      · obtain ⟨host, mission, admitted⟩ := system
        cases hbetween
        rw [hhistory, hafter]
        exact ⟨rfl, hbegin⟩
      · by_cases hplace : (system.after site turns).mission = .between
        · -- the pass would begin a second time
          have hagain : (marks ((system.after site turns).noted .mission)).count .began = 1 := by
            rw [noted, missionMark?, hplace]
            rfl
          omega
        · rw [List.count_eq_zero.2 (began_not_mem_noted hplace)]
          exact ⟨hbegan, hmission _ _ hP hplace⟩

/-- What holds where a pass has begun while the thread rests, and is kept by every step of the pass and by every turn
of the thread, holds when the pass is over.  -/
theorem pass_invariant {P : List (ExperimentNote σ) → ExperimentSystem σ → Prop} {system : ExperimentSystem σ}
    (hrest : system.Resting site) (hbetween : system.mission = .between)
    (hbegin : P [.mark .began] { system with mission := .choosing site.actions })
    (hmission : ∀ notes next, P notes next → next.mission ≠ .between →
      P (notes ++ next.noted .mission) (next.perform site .mission))
    (hthread : ∀ notes next, P notes next → P (notes ++ next.noted .thread) (next.perform site .thread))
    {turns : List (Move σ)} (hpass : system.CarryOut site turns .pass) :
    P (system.history site turns) (system.after site turns) := by
  obtain ⟨hturns, -, hone⟩ := hpass
  rcases pass_invariant_upTo site hrest hbetween hbegin hmission hthread turns hturns hone.le with
    ⟨hnothing, -⟩ | ⟨-, hP⟩
  · rw [hnothing] at hone
    cases hone
  · exact hP

/-! ### Between operations -/

/-- Between two operations of a trial the thread rests, no pass is on, and every request is filed. -/
theorem Trial.resting {start : ExperimentSystem σ} {deeds : List ExperimentDeed} {schedule : List (Move σ)}
    (hrest : start.Resting site) (hbetween : start.mission = .between) (hadmitted : start.admitted = [])
    (trial : Trial site start deeds schedule) :
    (start.after site schedule).Resting site ∧ (start.after site schedule).mission = .between ∧
      (start.after site schedule).admitted = [] := by
  induction trial with
  | start => exact ⟨hrest, hbetween, hadmitted⟩
  | @next deeds before turns operation _ hturns hrest' ih =>
    obtain ⟨hrest, hbetween, hadmitted⟩ := ih
    refine ⟨hrest', ?_⟩
    rw [after_append]
    cases operation with
    | request code =>
      rw [(after_request site hrest hadmitted hturns).1]
      split <;> exact ⟨hbetween, hadmitted⟩
    | abort =>
      obtain ⟨n, hafter, -⟩ := after_abort site hrest hturns
      rw [hafter, control, after_threads]
      exact ⟨hbetween, hadmitted⟩
    | pass =>
      refine ⟨hturns.2.1, ?_⟩
      refine pass_invariant site (P := fun _ next => next.admitted = []) hrest hbetween hadmitted ?_ ?_ hturns
      · intro _ next h _
        exact (admitted_missionStep site next).trans h
      · intro _ next h
        rw [perform]
        split <;> exact h

end ExperimentSystem

end Spacecraft
