import Spacecraft.Proofs.Experiment.Interleaving

/-!
# Turns

Every turn is a step of the experiment thread (`ThreadStep`) or stands beside it (`Beside`): it may set flags, as
noted, and it may hand over a code, but it leaves alone what tells of the run.  `turn_cases` says so, and `invariant`
makes an induction over schedules of it.
-/

namespace Spacecraft

/-! ### Steps of the experiment thread -/

/-- The steps of the experiment thread, with what is noted of them. -/
inductive ThreadStep {σ : Type} (lab : Laboratory σ) :
    ExperimentHost σ → List (ExperimentNote σ) → ExperimentHost σ → Prop where
  | receive {c w code} : c.queue.peek = .item code →
      ThreadStep lab ⟨c, .receiving, w⟩ [] ⟨{ c with queue := c.queue.drain }, .received code, w⟩
  | hangUp {c w} : c.queue.peek = .closed → ThreadStep lab ⟨c, .receiving, w⟩ [] ⟨c, .ended, w⟩
  | drop {c w code} : c.events.shutdown = true → ThreadStep lab ⟨c, .received code, w⟩ [] ⟨c, .ended, w⟩
  | skip {c w code} : c.events.shutdown = false → lab.find? code = none →
      ThreadStep lab ⟨c, .received code, w⟩ [] ⟨c, .receiving, w⟩
  | find {c w code e} : c.events.shutdown = false → lab.find? code = some e →
      ThreadStep lab ⟨c, .received code, w⟩ [] ⟨c, .preparing e, w⟩
  | prepare {c w e} : ThreadStep lab ⟨c, .preparing e, w⟩ [.mark .prepared] ⟨c.clearStale, .marking e, w⟩
  | mark {c w e} : ThreadStep lab ⟨c, .marking e, w⟩ [] ⟨c.setInProgress true, .publishing e, w⟩
  | publish {c w e} : ThreadStep lab ⟨c, .publishing e, w⟩ [] ⟨c.publishRun e.code, .starting e, w⟩
  | start {c w e} : ThreadStep lab ⟨c, .starting e, w⟩ [.call (.start e (e.start c w).1)]
      ⟨c, .started e (e.start c w).1, (e.start c w).2⟩
  | commence {c w e} : ThreadStep lab ⟨c, .started e .success, w⟩ [] ⟨c.publishStart .success, .boundary e, w⟩
  | refuse {c w e} : ThreadStep lab ⟨c, .started e .failure, w⟩ [] ⟨c.publishStart .failure, .closing none, w⟩
  | pass {c w e} : c.mustStop = false → ThreadStep lab ⟨c, .boundary e, w⟩ [] ⟨c, .iterating e, w⟩
  | heed {c w e} : c.mustStop = true → ThreadStep lab ⟨c, .boundary e, w⟩ [] ⟨c, .aborting e, w⟩
  | cut {c w e} : ThreadStep lab ⟨c, .aborting e, w⟩ [] ⟨c.clearAbort, .stopping e .abort, w⟩
  | iterate {c w e result calls w'} : e.iterate c w = (result, calls, w') →
      ThreadStep lab ⟨c, .iterating e, w⟩
        (.call (.iteration e result) :: (calls.filterMap ExperimentController.Call.mark?).map .mark)
        ⟨calls.foldl .apply c, .iterated e result, w'⟩
  | again {c w e} : ThreadStep lab ⟨c, .iterated e .loopImmediately, w⟩ []
      ⟨c.publishIteration .loopImmediately, .boundary e, w⟩
  | wait {c w e} : ThreadStep lab ⟨c, .iterated e .waitForNextCycle, w⟩ []
      ⟨c.publishIteration .waitForNextCycle, .pausing e, w⟩
  | conclude {c w e result} : result.isFinal = true → ThreadStep lab ⟨c, .iterated e result, w⟩ []
      ⟨c.publishIteration result, .stopping e result, w⟩
  | resume {c w e} : c.released = true → ThreadStep lab ⟨c, .pausing e, w⟩ [.mark .resumed] ⟨c, .resuming e, w⟩
  | clear {c w e} : ThreadStep lab ⟨c, .resuming e, w⟩ [] ⟨c.clearIteration, .boundary e, w⟩
  | stop {c w e result} : ThreadStep lab ⟨c, .stopping e result, w⟩ [.call (.stop e result)]
      ⟨c, .closing (some result), e.stop result w⟩
  | close {c w result} : ThreadStep lab ⟨c, .closing result, w⟩ [] ⟨c.publishEnd result, .releasing result, w⟩
  | release {c w} : ThreadStep lab ⟨c, .releasing none, w⟩ [] ⟨c.setInProgress false, .receiving, w⟩
  | finish {c w result} : ThreadStep lab ⟨c, .releasing (some result), w⟩ []
      ⟨c.setInProgress false, .recording result, w⟩
  | record {c w result} : ThreadStep lab ⟨c, .recording result, w⟩ [] ⟨c, .receiving, lab.record result w⟩

theorem ThreadStep.of_step {σ : Type} {lab : Laboratory σ} {host next : ExperimentHost σ}
    (h : host.step lab = some next) : ThreadStep lab host host.notes next := by
  obtain ⟨c, thread, w⟩ := host
  cases thread with
  | unborn => cases h
  | ended => cases h
  | receiving =>
    simp only [ExperimentHost.step] at h
    cases hpeek : c.queue.peek with
    | item code =>
      rw [hpeek] at h
      cases h
      exact .receive hpeek
    | closed =>
      rw [hpeek] at h
      cases h
      exact .hangUp hpeek
    | waiting =>
      rw [hpeek] at h
      cases h
  | received code =>
    simp only [ExperimentHost.step] at h
    cases hshut : c.events.shutdown with
    | true =>
      rw [hshut] at h
      cases h
      exact .drop hshut
    | false =>
      rw [hshut, if_neg Bool.false_ne_true] at h
      cases hfind : lab.find? code with
      | none =>
        rw [hfind] at h
        cases h
        exact .skip hshut hfind
      | some e =>
        rw [hfind] at h
        cases h
        exact .find hshut hfind
  | preparing e => cases h; exact .prepare
  | marking e => cases h; exact .mark
  | publishing e => cases h; exact .publish
  | starting e => cases h; exact .start
  | started e result => cases result <;> cases h <;> constructor
  | boundary e =>
    simp only [ExperimentHost.step] at h
    cases hstop : c.mustStop with
    | true =>
      rw [hstop] at h
      cases h
      exact .heed hstop
    | false =>
      rw [hstop] at h
      cases h
      exact .pass hstop
  | aborting e => cases h; exact .cut
  | iterating e => cases h; exact .iterate rfl
  | iterated e result => cases result <;> cases h <;> constructor <;> rfl
  | pausing e =>
    simp only [ExperimentHost.step] at h
    simp only [ExperimentHost.notes]
    cases hreleased : c.released with
    | true =>
      rw [hreleased] at h
      cases h
      exact .resume hreleased
    | false =>
      rw [hreleased] at h
      cases h
  | resuming e => cases h; exact .clear
  | stopping e result => cases h; exact .stop
  | closing result => cases h; exact .close
  | releasing result => cases result <;> cases h <;> constructor
  | recording result => cases h; exact .record

/-- A wait for the next pass ends only when something releases it. -/
theorem ThreadStep.of_pausing {σ : Type} {lab : Laboratory σ} {host next : ExperimentHost σ}
    {notes : List (ExperimentNote σ)} {e : Experiment σ} (hstep : ThreadStep lab host notes next)
    (h : host.thread = .pausing e) :
    host.controller.released = true ∧ notes = [.mark .resumed] ∧ next.thread = .resuming e := by
  cases hstep with
  | resume hreleased =>
    cases h
    exact ⟨hreleased, rfl, rfl⟩
  | _ => cases h

/-- The thread is blocked only where it waits for a code or for the next pass. -/
theorem ExperimentHost.blocked_cases {σ : Type} {lab : Laboratory σ} {host : ExperimentHost σ}
    (h : host.step lab = none) :
    host.thread = .unborn ∨ host.thread = .ended ∨
      (host.thread = .receiving ∧ host.controller.queue.peek = .waiting) ∨
      ∃ e, host.thread = .pausing e ∧ host.controller.released = false := by
  obtain ⟨c, thread, w⟩ := host
  cases thread with
  | unborn => exact Or.inl rfl
  | ended => exact Or.inr (Or.inl rfl)
  | receiving =>
    simp only [ExperimentHost.step] at h
    refine Or.inr (Or.inr (Or.inl ⟨rfl, ?_⟩))
    cases hpeek : c.queue.peek with
    | waiting => rfl
    | item code | closed =>
      rw [hpeek] at h
      cases h
  | pausing e =>
    simp only [ExperimentHost.step] at h
    refine Or.inr (Or.inr (Or.inr ⟨e, rfl, ?_⟩))
    cases hreleased : c.released with
    | false => rfl
    | true =>
      rw [hreleased] at h
      cases h
  | received code =>
    simp only [ExperimentHost.step] at h
    cases hfind : lab.find? code <;> rw [hfind] at h <;> split at h <;> cases h
  | _ => cases h

theorem ExperimentHost.notes_of_blocked {σ : Type} {lab : Laboratory σ} {host : ExperimentHost σ}
    (h : host.step lab = none) : host.notes = [] := by
  rcases blocked_cases h with hthread | hthread | ⟨hthread, _⟩ | ⟨e, hthread, hreleased⟩
  · rw [notes, hthread]
  · rw [notes, hthread]
  · rw [notes, hthread]
  · rw [notes, hthread, hreleased]
    rfl

/-- It is the turn of the experiment thread. -/
def Move.isThread {σ : Type} : Move σ → Bool
  | thread => true
  | mission | ask _ | file _ | abort | shutdown | close | disturb _ => false

/-! ### Turns beside the experiment thread -/

/-- What a turn may do to the controller that is not a step of the experiment thread: flags are only set, as noted, and
nothing else changes that tells of the run. -/
structure Beside {σ : Type} (notes : List (ExperimentNote σ)) (c c' : ExperimentController) : Prop where
  inProgress : c'.events.inProgress = c.events.inProgress
  abort : c'.events.abortRequested = true ↔ c.events.abortRequested = true ∨ .abort ∈ ExperimentNote.marks notes
  started : c'.events.iterationStarted = true ↔
    c.events.iterationStarted = true ∨ .signalled ∈ ExperimentNote.marks notes
  shutdown : c'.events.shutdown = true ↔ c.events.shutdown = true ∨ .shutdown ∈ ExperimentNote.marks notes
  current : c'.info.current = c.info.current
  completedRuns : c'.info.completedRuns = c.info.completedRuns
  closed : c.queue.closed = true → c'.queue.closed = true
  calls : ExperimentNote.calls notes = []
  prepared : .prepared ∉ ExperimentNote.marks notes
  resumed : .resumed ∉ ExperimentNote.marks notes

namespace Beside

variable {σ : Type}

/-- An access that moves no flag and is not noted. -/
private theorem of_quiet {c c' : ExperimentController} (hevents : c'.events = c.events)
    (hcurrent : c'.info.current = c.info.current) (hruns : c'.info.completedRuns = c.info.completedRuns)
    (hclosed : c.queue.closed = true → c'.queue.closed = true) : Beside (σ := σ) [] c c' := by
  constructor <;> first | exact hclosed | simp [hevents, hcurrent, hruns, ExperimentNote.marks, ExperimentNote.calls]

theorem refl (c : ExperimentController) : Beside (σ := σ) [] c c := of_quiet rfl rfl rfl id

theorem trans {notes more : List (ExperimentNote σ)} {a b c : ExperimentController} (h : Beside notes a b)
    (h' : Beside more b c) : Beside (notes ++ more) a c where
  inProgress := h'.inProgress.trans h.inProgress
  abort := by rw [h'.abort, h.abort, ExperimentNote.marks_append, List.mem_append, or_assoc]
  started := by rw [h'.started, h.started, ExperimentNote.marks_append, List.mem_append, or_assoc]
  shutdown := by rw [h'.shutdown, h.shutdown, ExperimentNote.marks_append, List.mem_append, or_assoc]
  current := h'.current.trans h.current
  completedRuns := h'.completedRuns.trans h.completedRuns
  closed := h'.closed ∘ h.closed
  calls := by rw [ExperimentNote.calls_append, h.calls, h'.calls, List.append_nil]
  prepared := by
    rw [ExperimentNote.marks_append, List.mem_append]
    exact not_or_intro h.prepared h'.prepared
  resumed := by
    rw [ExperimentNote.marks_append, List.mem_append]
    exact not_or_intro h.resumed h'.resumed

theorem apply (c : ExperimentController) (call : ExperimentController.Call) :
    Beside (σ := σ) (call.mark?.toList.map .mark) c (c.apply call) := by
  cases call with
  | request code =>
    show Beside [] c (c.request code).2
    rw [ExperimentController.request_eq]
    cases c.inProgress <;> exact of_quiet rfl rfl rfl id
  | abort =>
    constructor <;> simp [ExperimentController.Call.mark?, ExperimentNote.marks, ExperimentNote.calls,
      ExperimentNote.mark?, ExperimentNote.call?, ExperimentController.apply, ExperimentController.abort]
  | shutdown =>
    constructor <;> simp [ExperimentController.Call.mark?, ExperimentNote.marks, ExperimentNote.calls,
      ExperimentNote.mark?, ExperimentNote.call?, ExperimentController.apply, ExperimentController.shutDown,
      Mailbox.close]

/-- An access of a pass that moves no flag. -/
private theorem of_pass {mark : ExperimentMark} (hmark : mark = .began ∨ ∃ code, mark = .handed code)
    {c c' : ExperimentController} (hevents : c'.events = c.events) (hcurrent : c'.info.current = c.info.current)
    (hruns : c'.info.completedRuns = c.info.completedRuns) (hclosed : c'.queue.closed = c.queue.closed) :
    Beside (σ := σ) [.mark mark] c c' := by
  rcases hmark with rfl | ⟨code, rfl⟩ <;> constructor <;>
    simp [hevents, hcurrent, hruns, hclosed, ExperimentNote.marks, ExperimentNote.calls, ExperimentNote.mark?,
      ExperimentNote.call?]

/-- An access by which a pass lets a waiting experiment go on. -/
private theorem of_signal {c c' : ExperimentController}
    (hevents : c'.events = { c.events with iterationStarted := true })
    (hinfo : c'.info = c.info) (hqueue : c'.queue = c.queue) : Beside (σ := σ) [.mark .signalled] c c' := by
  constructor <;> simp [hevents, hinfo, hqueue, ExperimentNote.marks, ExperimentNote.calls, ExperimentNote.mark?,
    ExperimentNote.call?]

theorem of_shutdown (c : ExperimentController) : Beside (σ := σ) [.mark .shutdown] c c.raiseShutdown := by
  constructor <;> simp [ExperimentController.raiseShutdown, ExperimentNote.marks, ExperimentNote.calls,
    ExperimentNote.mark?, ExperimentNote.call?]

theorem started_eq {notes : List (ExperimentNote σ)} {c c' : ExperimentController} (h : Beside notes c c')
    (hnone : .signalled ∉ ExperimentNote.marks notes) : c'.events.iterationStarted = c.events.iterationStarted := by
  rw [Bool.eq_iff_iff, h.started, or_iff_left hnone]

/-- The calls that an experiment makes in an iteration. -/
theorem foldl_apply (c : ExperimentController) (calls : List ExperimentController.Call) :
    Beside (σ := σ) ((calls.filterMap ExperimentController.Call.mark?).map .mark) c (calls.foldl .apply c) := by
  induction calls generalizing c with
  | nil => exact refl c
  | cons call calls ih =>
    have hmarks : (call :: calls).filterMap ExperimentController.Call.mark? =
        call.mark?.toList ++ calls.filterMap ExperimentController.Call.mark? := by
      rw [List.filterMap_cons]
      cases call.mark? <;> rfl
    rw [hmarks, List.map_append]
    exact (apply c call).trans (ih _)

end Beside

namespace ExperimentSystem

variable {σ : Type} (site : ExperimentSite σ)

/-! ### Turns -/

theorem missionStep_beside (system : ExperimentSystem σ) :
    (system.missionStep site).host.thread = system.host.thread ∧
      Beside (σ := σ) (system.missionMark?.map .mark).toList system.host.controller
        (system.missionStep site).host.controller := by
  obtain ⟨⟨c, thread, w⟩, mission, admitted⟩ := system
  cases mission with
  | between => exact ⟨rfl, .of_pass (Or.inl rfl) rfl rfl rfl rfl⟩
  | choosing rest =>
    cases rest with
    | nil =>
      simp only [missionStep]
      split <;> exact ⟨rfl, .of_quiet rfl rfl rfl id⟩
    | cons action rest =>
      simp only [missionStep]
      split <;> exact ⟨rfl, .refl c⟩
  | acting action rest =>
    cases action with
    | start =>
      show thread = thread ∧ Beside (c.info.requested.map _ |>.map _).toList c c.start
      rw [ExperimentController.start]
      cases hrequested : c.info.requested with
      | none => exact ⟨rfl, .refl c⟩
      | some code => exact ⟨rfl, .of_pass (Or.inr ⟨code, rfl⟩) rfl rfl rfl rfl⟩
    | kick => exact ⟨rfl, .of_signal rfl rfl rfl⟩
    | other name change => exact ⟨rfl, .refl c⟩
  | releasing => exact ⟨rfl, .of_signal rfl rfl rfl⟩

/-- Unless the thread is blocked, its turn is a step. -/
theorem threadTurn_cases (system : ExperimentSystem σ) :
    ThreadStep site.laboratory system.host (system.noted .thread) (system.perform site .thread).host ∨
      (system.host.step site.laboratory = none ∧ system.noted .thread = [] ∧ system.perform site .thread = system) := by
  rw [perform, noted]
  cases h : system.host.step site.laboratory with
  | some next => exact Or.inl (.of_step h)
  | none => exact Or.inr ⟨rfl, ExperimentHost.notes_of_blocked h, rfl⟩

/-- A turn of anybody else stands beside the thread. -/
theorem turn_beside {move : Move σ} (hmove : move.isThread = false) (system : ExperimentSystem σ) :
    (system.perform site move).host.thread = system.host.thread ∧
      Beside (system.noted move) system.host.controller (system.perform site move).host.controller := by
  cases move with
  | thread => cases hmove
  | mission => exact system.missionStep_beside site
  | ask code =>
    rw [perform, noted]
    split <;> exact ⟨rfl, .refl _⟩
  | file code =>
    rw [perform, noted]
    split <;> exact ⟨rfl, .of_quiet rfl rfl rfl id⟩
  | abort => exact ⟨rfl, .apply _ .abort⟩
  | shutdown => exact ⟨rfl, .of_shutdown _⟩
  | close =>
    rw [perform, noted]
    split
    · exact ⟨rfl, .of_quiet rfl rfl rfl fun _ => rfl⟩
    · exact ⟨rfl, .refl _⟩
  | disturb change => exact ⟨rfl, .refl _⟩

/-- A turn is a step of the experiment thread or stands beside it. -/
theorem turn_cases (move : Move σ) (system : ExperimentSystem σ) :
    ThreadStep site.laboratory system.host (system.noted move) (system.perform site move).host ∨
      ((system.perform site move).host.thread = system.host.thread ∧
        Beside (system.noted move) system.host.controller (system.perform site move).host.controller) := by
  cases hmove : move.isThread with
  | false => exact Or.inr (turn_beside site hmove system)
  | true =>
    cases move <;> cases hmove
    refine (threadTurn_cases site system).imp_right fun ⟨_, hnotes, hsame⟩ => ?_
    rw [hnotes, hsame]
    exact ⟨rfl, .refl _⟩

/-! ### Induction -/

/-- The number of turns of the experiment thread in a schedule. -/
def turns (schedule : List (Move σ)) : Nat := schedule.countP Move.isThread

/-- What holds at the start, and is kept by every turn of the experiment thread and by all that stands beside it, holds
after every schedule.  It may speak of the number of turns that the thread had. -/
theorem invariant_turns {P : Nat → List (ExperimentNote σ) → ExperimentHost σ → Prop}
    (hthread : ∀ n notes host more next, P n notes host → ThreadStep site.laboratory host more next →
      P (n + 1) (notes ++ more) next)
    (hblocked : ∀ n notes host, P n notes host → host.step site.laboratory = none → P (n + 1) notes host)
    (hbeside : ∀ n notes host more next, P n notes host → next.thread = host.thread →
      Beside more host.controller next.controller → P n (notes ++ more) next)
    {system : ExperimentSystem σ} (before : List (ExperimentNote σ)) (hsystem : P 0 before system.host)
    (schedule : List (Move σ)) :
    P (turns schedule) (before ++ system.history site schedule) (system.after site schedule).host := by
  induction schedule using List.reverseRecOn with
  | nil =>
    rw [history, List.append_nil]
    exact hsystem
  | append_singleton schedule move ih =>
    rw [history_concat, after_concat, ← List.append_assoc, turns, List.countP_append, List.countP_singleton, ← turns]
    cases hmove : move.isThread with
    | false =>
      obtain ⟨hsame, hstep⟩ := turn_beside site hmove (system.after site schedule)
      exact hbeside _ _ _ _ _ ih hsame hstep
    | true =>
      cases move <;> cases hmove
      rcases threadTurn_cases site (system.after site schedule) with hstep | ⟨hnone, hnotes, hsame⟩
      · exact hthread _ _ _ _ _ ih hstep
      · rw [hnotes, hsame, List.append_nil]
        exact hblocked _ _ _ ih hnone

/-- An invariant that does not speak of the number of turns. -/
theorem invariant {P : List (ExperimentNote σ) → ExperimentHost σ → Prop}
    (hthread : ∀ notes host more next, P notes host → ThreadStep site.laboratory host more next →
      P (notes ++ more) next)
    (hbeside : ∀ notes host more next, P notes host → next.thread = host.thread →
      Beside more host.controller next.controller → P (notes ++ more) next)
    {system : ExperimentSystem σ} (before : List (ExperimentNote σ)) (hsystem : P before system.host)
    (schedule : List (Move σ)) :
    P (before ++ system.history site schedule) (system.after site schedule).host :=
  invariant_turns site (P := fun _ => P) (fun _ => hthread) (fun _ _ _ h _ => h) (fun _ => hbeside) before hsystem
    schedule

end ExperimentSystem

end Spacecraft
