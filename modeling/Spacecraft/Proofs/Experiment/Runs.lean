import Spacecraft.Proofs.Experiment.Turns

/-!
# Runs of experiments

Whatever the order of turns, the calls to experiments are one whole run (`WholeRun`) after another, and the last one
may be unfinished.  The invariant (`Accounted`) tells from the place of the thread what the unfinished run looks like
(`OpenRun`) and counts the runs that were stopped.  A run is in progress at the places of `ExperimentThread.isMarked`
(`inProgress_eq_isMarked`), and a run that is cut short was asked to end (`Answering`).
-/

namespace Spacecraft

/-! ### Runs -/

namespace ExperimentCall

variable {σ : Type}

/-- The experiment was stopped. -/
def isStop : ExperimentCall σ → Bool
  | stop _ _ => true
  | start _ _ | iteration _ _ => false

/-- The calls of a run that started and has iterated with these answers. -/
def begun (e : Experiment σ) (results : List IterationResult) : List (ExperimentCall σ) :=
  .start e .success :: results.map (.iteration e)

private theorem begun_append_one (e : Experiment σ) (results : List IterationResult) (result : IterationResult) :
    begun e (results ++ [result]) = begun e results ++ [.iteration e result] := by
  rw [begun, begun, List.map_append, List.map_singleton, List.cons_append]

private theorem any_isStop_begun (e : Experiment σ) (results : List IterationResult) :
    (begun e results).any isStop = false := by
  simp [begun, isStop]

/-- The calls of a whole run of an experiment. -/
inductive WholeRun (e : Experiment σ) : List (ExperimentCall σ) → Prop where
  /-- It failed to start. -/
  | refused : WholeRun e [.start e .failure]
  /-- Its last iteration ended it. -/
  | concluded {results last} : (∀ r ∈ results, r.isFinal = false) → last.isFinal = true →
      WholeRun e (begun e (results ++ [last]) ++ [.stop e last])
  /-- It was cut short between two iterations. -/
  | cut {results} : (∀ r ∈ results, r.isFinal = false) → WholeRun e (begun e results ++ [.stop e .abort])

end ExperimentCall

namespace ExperimentThread

variable {σ : Type}

/-- The places at which a run is in progress. -/
def isMarked : ExperimentThread σ → Bool
  | publishing _ | starting _ | started _ _ | boundary _ | aborting _ | iterating _ | iterated _ _ | pausing _
  | resuming _ | stopping _ _ | closing _ | releasing _ => true
  | unborn | receiving | received _ | preparing _ | marking _ | recording _ | ended => false

/-- The places at which a run is published. -/
def isPublished : ExperimentThread σ → Bool
  | starting _ | started _ _ | boundary _ | aborting _ | iterating _ | iterated _ _ | pausing _ | resuming _
  | stopping _ _ | closing _ => true
  | unborn | receiving | received _ | preparing _ | marking _ | publishing _ | releasing _ | recording _
  | ended => false

/-- The place at which a run that was stopped is not counted yet. -/
def isUncounted : ExperimentThread σ → Bool
  | closing (some _) => true
  | _ => false

private theorem isMarked_of_isPublished {thread : ExperimentThread σ} (h : thread.isPublished = true) :
    thread.isMarked = true := by
  cases thread <;> first | rfl | cases h

private theorem isUncounted_of_not_isMarked {thread : ExperimentThread σ} (h : thread.isMarked = false) :
    thread.isUncounted = false := by
  cases thread <;> first | rfl | cases h

end ExperimentThread

namespace ThreadStep

variable {σ : Type} {lab : Laboratory σ} {host next : ExperimentHost σ} {notes : List (ExperimentNote σ)}

private theorem isMarked_of_call (hstep : ThreadStep lab host notes next) (h : ExperimentNote.calls notes ≠ []) :
    host.thread.isMarked = true ∧ next.thread.isMarked = true := by
  cases hstep with
  | start | iterate | stop => exact ⟨rfl, rfl⟩
  | _ => exact absurd rfl h

private theorem thread_of_stop {e : Experiment σ} {result : IterationResult} (hstep : ThreadStep lab host notes next)
    (h : .call (.stop e result) ∈ notes) : host.thread = .stopping e result := by
  cases hstep with
  | stop =>
    cases List.mem_singleton.1 h
    rfl
  | _ => simp at h

end ThreadStep

/-- The number of completed runs, with the one that is still to be counted. -/
def ExperimentHost.stoppedRuns {σ : Type} (host : ExperimentHost σ) : UInt32 :=
  host.controller.info.completedRuns + if host.thread.isUncounted then 1 else 0

open ExperimentCall ExperimentNote

/-- The calls of the run that the thread is in the middle of. -/
def OpenRun {σ : Type} : ExperimentThread σ → List (ExperimentCall σ) → Prop
  | .started e .success, calls => calls = begun e []
  | .boundary e, calls | .aborting e, calls | .iterating e, calls | .pausing e, calls | .resuming e, calls =>
    ∃ results, (∀ r ∈ results, r.isFinal = false) ∧ calls = begun e results
  | .iterated e r, calls => ∃ results, (∀ r ∈ results, r.isFinal = false) ∧ calls = begun e (results ++ [r])
  | .stopping e r, calls => WholeRun e (calls ++ [.stop e r]) ∧ calls.any isStop = false
  | _, calls => calls = []

namespace OpenRun

variable {σ : Type}

private theorem exists_wholeRun {thread : ExperimentThread σ} {calls : List (ExperimentCall σ)}
    (h : OpenRun thread calls)
    (hne : calls ≠ []) :
    thread.isMarked = true ∧ ∃ e, thread.held? = some e ∧ ∃ rest ≠ [], WholeRun e (calls ++ rest) := by
  -- at every place before its last iteration has ended it, a run may be cut short
  have hcut : ∀ {e : Experiment σ}, (∃ results, (∀ r ∈ results, r.isFinal = false) ∧ calls = begun e results) →
      ∃ rest ≠ [], WholeRun e (calls ++ rest) := by
    rintro e ⟨results, hresults, rfl⟩
    exact ⟨_, List.cons_ne_nil _ _, .cut hresults⟩
  cases thread with
  | started e result =>
    cases result with
    | success => exact ⟨rfl, e, rfl, hcut ⟨[], by simp, h⟩⟩
    | failure => exact absurd h hne
  | boundary e => exact ⟨rfl, e, rfl, hcut h⟩
  | aborting e => exact ⟨rfl, e, rfl, hcut h⟩
  | iterating e => exact ⟨rfl, e, rfl, hcut h⟩
  | pausing e => exact ⟨rfl, e, rfl, hcut h⟩
  | resuming e => exact ⟨rfl, e, rfl, hcut h⟩
  | iterated e result =>
    obtain ⟨results, hresults, rfl⟩ := h
    refine ⟨rfl, e, rfl, ?_⟩
    cases hfinal : result.isFinal with
    | true => exact ⟨_, List.cons_ne_nil _ _, .concluded hresults hfinal⟩
    | false =>
      exact hcut ⟨results ++ [result], List.forall_mem_append.2 ⟨hresults, List.forall_mem_singleton.2 hfinal⟩, rfl⟩
  | stopping e result => exact ⟨rfl, e, rfl, _, List.cons_ne_nil _ _, h.1⟩
  | unborn | receiving | received _ | preparing _ | marking _ | publishing _ | starting _ | closing _ | releasing _
  | recording _ | ended => exact absurd h hne

end OpenRun

namespace ExperimentSystem

variable {σ : Type} (site : ExperimentSite σ)

/-! ### What is told of the run -/

theorem inProgress_eq_isMarked (world : σ) (schedule : List (Move σ)) :
    ((initial world).after site schedule).host.controller.inProgress =
      ((initial world).after site schedule).host.thread.isMarked := by
  refine invariant site (P := fun _ host => host.controller.inProgress = host.thread.isMarked) ?_ ?_ [] rfl schedule
  · intro notes host more next h hstep
    cases hstep with
    | @iterate c w e result calls w' =>
      show (calls.foldl .apply c).inProgress = true
      rw [ExperimentController.inProgress, (Beside.foldl_apply (σ := σ) c calls).inProgress]
      exact h
    | @conclude c w e result =>
      cases result <;> exact h
    | @close c w result => cases result <;> exact h
    | _ => first | exact h | rfl
  · intro notes host more next h hsame hbeside
    rw [hsame, ExperimentController.inProgress, hbeside.inProgress]
    exact h

private theorem isSome_current_eq_isPublished (world : σ) (schedule : List (Move σ)) :
    ((initial world).after site schedule).host.controller.info.current.isSome =
      ((initial world).after site schedule).host.thread.isPublished := by
  refine invariant site (P := fun _ host => host.controller.info.current.isSome = host.thread.isPublished) ?_ ?_ [] rfl
    schedule
  · intro notes host more next h hstep
    cases hstep with
    | @iterate c w e result calls w' =>
      show (calls.foldl .apply c).info.current.isSome = true
      rw [(Beside.foldl_apply (σ := σ) c calls).current]
      exact h
    | @close c w result => cases result <;> rfl
    | _ => first | exact h | rfl
  · intro notes host more next h hsame hbeside
    rw [hsame, hbeside.current]
    exact h

/-! ### The account of the calls -/

/-- The calls are whole runs and the run that the thread is in the middle of, and the runs that were stopped are
counted.  -/
def Accounted (notes : List (ExperimentNote σ)) (host : ExperimentHost σ) : Prop :=
  (∀ e, host.thread.held? = some e → e ∈ site.laboratory.experiments) ∧
    ∃ (runs : List (List (ExperimentCall σ))) (unfinished : List (ExperimentCall σ)),
      calls notes = runs.flatten ++ unfinished ∧
      (∀ run ∈ runs, ∃ e ∈ site.laboratory.experiments, WholeRun e run) ∧
      OpenRun host.thread unfinished ∧
      host.stoppedRuns = UInt32.ofNat (runs.countP fun run => run.any isStop)

namespace Accounted

variable {site} {notes more : List (ExperimentNote σ)} {host next : ExperimentHost σ}

/-- A step without a call. -/
theorem quiet (h : Accounted site notes host) (hcalls : calls more = [])
    (hheld : ∀ e, next.thread.held? = some e → host.thread.held? = some e ∨ e ∈ site.laboratory.experiments)
    (hopen : ∀ calls, OpenRun host.thread calls → OpenRun next.thread calls)
    (hcount : next.stoppedRuns = host.stoppedRuns) :
    Accounted site (notes ++ more) next := by
  obtain ⟨hmem, runs, unfinished, hcalls', hruns, hunfinished, hcompleted⟩ := h
  refine ⟨fun e he => (hheld e he).elim (hmem e) id, runs, unfinished, ?_, hruns, hopen _ hunfinished, ?_⟩
  · rw [calls_append, hcalls, List.append_nil, hcalls']
  · rw [hcount, hcompleted]

/-- A step with a call after which the run goes on. -/
private theorem extend (h : Accounted site notes host) {call : ExperimentCall σ} (hcalls : calls more = [call])
    (hheld : next.thread.held? = host.thread.held?)
    (hopen : ∀ calls, OpenRun host.thread calls → OpenRun next.thread (calls ++ [call]))
    (hcount : next.stoppedRuns = host.stoppedRuns) :
    Accounted site (notes ++ more) next := by
  obtain ⟨hmem, runs, unfinished, hcalls', hruns, hunfinished, hcompleted⟩ := h
  refine ⟨fun e he => hmem e (hheld.symm.trans he), runs, unfinished ++ [call], ?_, hruns, hopen _ hunfinished, ?_⟩
  · rw [calls_append, hcalls, hcalls', List.append_assoc]
  · rw [hcount, hcompleted]

/-- A step with the last call of a run. -/
theorem complete (h : Accounted site notes host) {call : ExperimentCall σ} (hcalls : calls more = [call])
    {e : Experiment σ} (hheld : host.thread.held? = some e)
    (hkept : ∀ e, next.thread.held? = some e → host.thread.held? = some e)
    (hopen : ∀ calls, OpenRun host.thread calls → WholeRun e (calls ++ [call]) ∧ calls.any isStop = false)
    (hnext : OpenRun next.thread [])
    (hcount : next.stoppedRuns = host.stoppedRuns + if call.isStop then 1 else 0) :
    Accounted site (notes ++ more) next := by
  obtain ⟨hmem, runs, unfinished, hcalls', hruns, hunfinished, hcompleted⟩ := h
  obtain ⟨hwhole, hstop⟩ := hopen _ hunfinished
  refine ⟨fun e he => hmem e (hkept e he), runs ++ [unfinished ++ [call]], [], ?_, ?_, hnext, ?_⟩
  · rw [calls_append, hcalls, hcalls', List.append_assoc, List.flatten_append, List.flatten_singleton, List.append_nil]
  · intro run hrun
    rcases List.mem_append.1 hrun with hrun | hrun
    · exact hruns run hrun
    · exact ⟨e, hmem e hheld, List.mem_singleton.1 hrun ▸ hwhole⟩
  · rw [hcount, hcompleted, List.countP_append, List.countP_singleton, List.any_append, hstop, Bool.false_or,
      List.any_cons, List.any_nil, Bool.or_false, UInt32.ofNat_add]
    cases call.isStop <;> rfl

theorem threadStep (h : Accounted site notes host) (hstep : ThreadStep site.laboratory host more next) :
    Accounted site (notes ++ more) next := by
  cases hstep with
  | receive | hangUp | drop | skip => exact h.quiet rfl (fun e he => nomatch he) (fun _ hopen => hopen) rfl
  | @find c w code e _ hfind =>
    refine h.quiet rfl (fun e' he' => Or.inr ?_) (fun _ hopen => hopen) rfl
    obtain rfl := Option.some.inj he'
    exact List.mem_of_find?_eq_some hfind
  | prepare | mark | publish | pass | heed | resume | clear =>
    exact h.quiet rfl (fun e he => Or.inl he) (fun _ hopen => hopen) rfl
  | @start c w e =>
    cases hresult : (e.start c w).1 with
    | success =>
      refine h.extend rfl rfl (fun calls hopen => ?_) rfl
      rw [show calls = [] from hopen]
      rfl
    | failure =>
      -- a run that fails to start is whole with its first call
      refine h.complete rfl rfl (fun e he => he) (fun calls hopen => ?_) rfl ?_
      · rw [show calls = [] from hopen]
        exact ⟨.refused, rfl⟩
      · exact (UInt32.add_zero _).symm
  | commence =>
    exact h.quiet rfl (fun e he => Or.inl he) (fun _ hopen => ⟨[], List.forall_mem_nil _, hopen⟩) rfl
  | refuse => exact h.quiet rfl (fun e he => nomatch he) (fun _ hopen => hopen) rfl
  | cut =>
    refine h.quiet rfl (fun e he => Or.inl he) (fun calls hopen => ?_) rfl
    obtain ⟨results, hresults, rfl⟩ := hopen
    exact ⟨.cut hresults, any_isStop_begun _ results⟩
  | @iterate c w e result asked w' =>
    have hasked := Beside.foldl_apply (σ := σ) c asked
    refine h.extend (calls_call_marks _ _) rfl (fun calls hopen => ?_) ?_
    · obtain ⟨results, hresults, rfl⟩ := hopen
      exact ⟨results, hresults, (begun_append_one e results result).symm⟩
    · rw [ExperimentHost.stoppedRuns, hasked.completedRuns]
      rfl
  | @conclude c w e result hfinal =>
    refine h.quiet rfl (fun e he => Or.inl he) (fun calls hopen => ?_) rfl
    obtain ⟨results, hresults, rfl⟩ := hopen
    exact ⟨.concluded hresults hfinal, any_isStop_begun _ _⟩
  | again | wait =>
    refine h.quiet rfl (fun e he => Or.inl he) (fun calls hopen => ?_) rfl
    obtain ⟨results, hresults, rfl⟩ := hopen
    exact ⟨_, List.forall_mem_append.2 ⟨hresults, List.forall_mem_singleton.2 rfl⟩, rfl⟩
  | @stop c w e result =>
    refine h.complete rfl rfl (fun e he => nomatch he) (fun calls hopen => hopen) rfl ?_
    show c.info.completedRuns + 1 = c.info.completedRuns + 0 + 1
    rw [UInt32.add_zero]
  | @close c w result =>
    refine h.quiet rfl (fun e he => nomatch he) (fun _ hopen => hopen) ?_
    cases result with
    | none => rfl
    | some result =>
      show c.info.completedRuns + 1 + 0 = c.info.completedRuns + 1
      rw [UInt32.add_zero]
  | release | finish | record => exact h.quiet rfl (fun e he => nomatch he) (fun _ hopen => hopen) rfl

theorem beside (h : Accounted site notes host) (hsame : next.thread = host.thread)
    (hbeside : Beside more host.controller next.controller) : Accounted site (notes ++ more) next := by
  refine h.quiet hbeside.calls (fun e he => Or.inl (hsame ▸ he)) (fun calls hopen => hsame ▸ hopen) ?_
  rw [ExperimentHost.stoppedRuns, hsame, hbeside.completedRuns]
  rfl

end Accounted

private theorem accounted (world : σ) (schedule : List (Move σ)) :
    Accounted site ((initial world).history site schedule) ((initial world).after site schedule).host := by
  have hinitial : Accounted site [] (initial world).host :=
    ⟨(fun _ he => nomatch he), [], [], rfl, List.forall_mem_nil _, rfl, rfl⟩
  exact invariant site (fun _ _ _ _ h hstep => h.threadStep hstep)
    (fun _ _ _ _ h hsame hbeside => h.beside hsame hbeside) [] hinitial schedule

/-! ### Why a run is cut short -/

/-- Somebody asked for the end of the run that is on. -/
def Asked (notes : List (ExperimentNote σ)) : Prop := .abort ∈ marks (thisRun notes) ∨ .shutdown ∈ marks notes

theorem Asked.append {notes more : List (ExperimentNote σ)} (h : Asked notes) (hmore : .prepared ∉ marks more) :
    Asked (notes ++ more) := by
  rw [Asked, thisRun_append notes hmore, marks_append, marks_append, List.mem_append, List.mem_append]
  exact h.imp Or.inl Or.inl

/-- What the thread relies on where a run is about to end. -/
def EndCause (notes : List (ExperimentNote σ)) : ExperimentThread σ → Prop
  | .aborting _ => Asked notes
  | .iterated e r => (calls notes).getLast? = some (.iteration e r)
  | .stopping e .abort => (calls notes).getLast? = some (.iteration e .abort) ∨ Asked notes
  | _ => True

theorem EndCause.append {notes more : List (ExperimentNote σ)} {thread : ExperimentThread σ} (h : EndCause notes thread)
    (hcalls : calls more = []) (hmore : .prepared ∉ marks more) : EndCause (notes ++ more) thread := by
  have hsame : calls (notes ++ more) = calls notes := by rw [calls_append, hcalls, List.append_nil]
  cases thread with
  | aborting e => exact Asked.append h hmore
  | iterated e r => exact (congrArg List.getLast? hsame).trans h
  | stopping e r =>
    cases r with
    | abort => exact h.imp (congrArg List.getLast? hsame).trans (Asked.append · hmore)
    | finished | loopImmediately | waitForNextCycle | failure => trivial
  | _ => trivial

/-- Every flag that asks for the end of a run was set by somebody, and so is what the thread relies on. -/
structure Answering (notes : List (ExperimentNote σ)) (host : ExperimentHost σ) : Prop where
  abort : host.controller.events.abortRequested = true → .abort ∈ marks (thisRun notes)
  shutdown : host.controller.events.shutdown = true → .shutdown ∈ marks notes
  cause : EndCause notes host.thread

namespace Answering

variable {notes more : List (ExperimentNote σ)} {host next : ExperimentHost σ}

theorem flags (h : Answering notes host) {c : ExperimentController} (hbeside : Beside more host.controller c) :
    (c.events.abortRequested = true → .abort ∈ marks (thisRun (notes ++ more))) ∧
      (c.events.shutdown = true → .shutdown ∈ marks (notes ++ more)) := by
  rw [hbeside.abort, hbeside.shutdown, thisRun_append notes hbeside.prepared, marks_append, marks_append,
    List.mem_append, List.mem_append]
  exact ⟨Or.imp_left h.abort, Or.imp_left h.shutdown⟩

private theorem asked_of_mustStop (h : Answering notes host) (hstop : host.controller.mustStop = true) :
    Asked notes := by
  rw [ExperimentController.mustStop, Bool.or_eq_true] at hstop
  exact hstop.imp h.abort h.shutdown

theorem beside (h : Answering notes host) (hsame : next.thread = host.thread)
    (hbeside : Beside more host.controller next.controller) : Answering (notes ++ more) next where
  abort := (h.flags hbeside).1
  shutdown := (h.flags hbeside).2
  cause := hsame ▸ h.cause.append hbeside.calls hbeside.prepared

/-- A step that moves neither of the two flags. -/
theorem quiet (h : Answering notes host)
    (habort : next.controller.events.abortRequested = host.controller.events.abortRequested)
    (hshutdown : next.controller.events.shutdown = host.controller.events.shutdown) (hmore : .prepared ∉ marks more)
    (hcause : EndCause (notes ++ more) next.thread) : Answering (notes ++ more) next where
  abort := by
    rw [habort, thisRun_append notes hmore, marks_append, List.mem_append]
    exact fun ha => Or.inl (h.abort ha)
  shutdown := by
    rw [hshutdown, marks_append, List.mem_append]
    exact fun hs => Or.inl (h.shutdown hs)
  cause := hcause

theorem threadStep {lab : Laboratory σ} (h : Answering notes host) (hstep : ThreadStep lab host more next) :
    Answering (notes ++ more) next := by
  cases hstep with
  | prepare =>
    refine ⟨(fun ha => nomatch ha), fun hs => ?_, trivial⟩
    rw [marks_append, List.mem_append]
    exact Or.inl (h.shutdown hs)
  | heed hstop =>
    rw [List.append_nil]
    exact ⟨h.abort, h.shutdown, h.asked_of_mustStop hstop⟩
  | cut =>
    rw [List.append_nil]
    exact ⟨(fun ha => nomatch ha), h.shutdown, Or.inr h.cause⟩
  | @iterate c w e result asked w' =>
    -- first the call, then what the experiment asked for in the iteration
    have hcall : Answering (notes ++ [.call (.iteration e result)]) ⟨c, .iterated e result, w'⟩ := by
      refine h.quiet rfl rfl List.not_mem_nil ?_
      rw [EndCause, calls_append]
      exact List.getLast?_concat
    rw [← List.singleton_append, ← List.append_assoc]
    exact hcall.beside rfl (Beside.foldl_apply c asked)
  | @conclude c w e result =>
    rw [List.append_nil]
    refine ⟨h.abort, h.shutdown, ?_⟩
    cases result with
    | abort => exact Or.inl h.cause
    | finished | loopImmediately | waitForNextCycle | failure => trivial
  | @close c w result =>
    cases result <;> exact h.quiet rfl rfl List.not_mem_nil trivial
  | start | resume | stop => exact h.quiet rfl rfl (by simp [marks, mark?]) trivial
  | _ => exact h.quiet rfl rfl List.not_mem_nil trivial

end Answering

private theorem answering (world : σ) (schedule : List (Move σ)) :
    Answering ((initial world).history site schedule) ((initial world).after site schedule).host := by
  have hinitial : Answering [] (initial world).host := ⟨(fun ha => nomatch ha), (fun hs => nomatch hs), trivial⟩
  exact invariant site (fun _ _ _ _ h hstep => h.threadStep hstep)
    (fun _ _ _ _ h hsame hbeside => h.beside hsame hbeside) [] hinitial schedule

/-! ### The calls of a schedule -/

/-- Only the thread calls experiments. -/
private theorem threadStep_of_call {system : ExperimentSystem σ} {move : Move σ} (h : calls (system.noted move) ≠ []) :
    ThreadStep site.laboratory system.host (system.noted move) (system.perform site move).host :=
  (turn_cases site move system).resolve_right fun hbeside => h hbeside.2.calls

/-- Whatever the order of turns, the calls to experiments are one whole run after another, each of one registered
experiment, and an unfinished run can only be finished to a whole one.  A run is cut short only after an abort since it
was prepared or after a shutdown.  A run is in progress from before its first call until after its last one, something
is published only while a run is in progress, and between runs those that were stopped are counted.  -/
theorem calls_are_runs (world : σ) (schedule : List (Move σ)) :
    let system := (initial world).after site schedule
    let notes := (initial world).history site schedule
    (∃ (runs : List (List (ExperimentCall σ))) (unfinished : List (ExperimentCall σ)),
        calls notes = runs.flatten ++ unfinished ∧
        (∀ run ∈ runs, ∃ e ∈ site.laboratory.experiments, WholeRun e run) ∧
        (unfinished ≠ [] → system.host.controller.inProgress = true ∧
          ∃ e ∈ site.laboratory.experiments, ∃ rest ≠ [], WholeRun e (unfinished ++ rest)) ∧
        (system.host.controller.inProgress = false →
          system.host.controller.info.completedRuns = UInt32.ofNat (runs.countP fun run => run.any isStop))) ∧
      (∀ move e, .call (.stop e .abort) ∈ system.noted move →
        (calls notes).getLast? = some (.iteration e .abort) ∨
          .abort ∈ marks (thisRun notes) ∨ .shutdown ∈ marks notes) ∧
      (∀ move, calls (system.noted move) ≠ [] →
        system.host.controller.inProgress = true ∧ (system.perform site move).host.controller.inProgress = true) ∧
      system.host.controller.inProgress = system.host.thread.isMarked ∧
      (system.host.controller.info.current.isSome = true → system.host.controller.inProgress = true) := by
  intro system notes
  have hprogress : system.host.controller.inProgress = system.host.thread.isMarked :=
    inProgress_eq_isMarked site world schedule
  refine ⟨?_, ?_, ?_, hprogress, ?_⟩
  · obtain ⟨hheld, runs, unfinished, hcalls, hruns, hopen, hcount⟩ := accounted site world schedule
    refine ⟨runs, unfinished, hcalls, hruns, fun hne => ?_, fun hidle => ?_⟩
    · obtain ⟨hmarked, e, he, rest⟩ := hopen.exists_wholeRun hne
      exact ⟨hprogress.trans hmarked, e, hheld e he, rest⟩
    · have huncounted := ExperimentThread.isUncounted_of_not_isMarked (hprogress.symm.trans hidle)
      rwa [ExperimentHost.stoppedRuns, huncounted, if_neg Bool.false_ne_true, UInt32.add_zero] at hcount
  · intro move e hstop
    have hcause := (answering site world schedule).cause
    have hcall : calls (system.noted move) ≠ [] := List.ne_nil_of_mem (List.mem_filterMap.2 ⟨_, hstop, rfl⟩)
    rwa [(threadStep_of_call site hcall).thread_of_stop hstop] at hcause
  · intro move hne
    have hnext := inProgress_eq_isMarked site world (schedule ++ [move])
    rw [after_concat] at hnext
    obtain ⟨hbefore, hafter⟩ := (threadStep_of_call site hne).isMarked_of_call hne
    exact ⟨hprogress.trans hbefore, hnext.trans hafter⟩
  · intro hcurrent
    have hpublished := (isSome_current_eq_isPublished site world schedule).symm.trans hcurrent
    exact hprogress.trans (ExperimentThread.isMarked_of_isPublished hpublished)

end ExperimentSystem

end Spacecraft
