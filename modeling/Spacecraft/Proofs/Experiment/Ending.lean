import Spacecraft.Proofs.Experiment.Runs

/-!
# The end of a run

A thread that was asked to end has only a few calls left, which depend on its place (`ExperimentThread.Ending`).  Each
of its steps brings it nearer to that end (`ThreadStep.rank_lt`) and takes a call off it (`ThreadStep.ending`), as long
as it finds the flag where it looks (`ExperimentHost.Heeding`).  An abort keeps its flag until the run is over
(`Ends`), a shutdown for ever (`Leaves`).  An abort that finds no run leaves a flag that the next run clears
(`abort_forgotten`).
-/

namespace Spacecraft

open ExperimentCall ExperimentNote

/-! ### What is left to do -/

/-- The reason for the end of a run that was asked to end and whose last iteration answered this. -/
def IterationResult.orAbort (result : IterationResult) : IterationResult := if result.isFinal then result else .abort

namespace ExperimentThread

variable {σ : Type}

/-- The calls that are left to a thread that was asked to end. -/
def Ending : ExperimentThread σ → List (ExperimentCall σ) → Prop
  | preparing e, calls | marking e, calls | publishing e, calls | starting e, calls =>
    calls = [.start e .failure] ∨ calls = [.start e .success, .stop e .abort]
  | started e .success, calls | boundary e, calls | aborting e, calls | pausing e, calls | resuming e, calls =>
    calls = [.stop e .abort]
  | iterating e, calls => ∃ result, calls = [.iteration e result, .stop e result.orAbort]
  | iterated e result, calls => calls = [.stop e result.orAbort]
  | stopping e result, calls => calls = [.stop e result]
  | _, calls => calls = []

private theorem exists_ending (thread : ExperimentThread σ) : ∃ calls, thread.Ending calls := by
  cases thread with
  | started e result => cases result <;> exact ⟨_, rfl⟩
  | preparing e | marking e | publishing e | starting e => exact ⟨_, Or.inl rfl⟩
  | iterating e => exact ⟨_, .finished, rfl⟩
  | _ => exact ⟨_, rfl⟩

/-- The number of steps after which a thread that was asked to end has ended. -/
def rank : ExperimentThread σ → Nat
  | unborn | ended => 0
  | received _ => 1
  | receiving => 2
  | recording _ => 3
  | releasing _ => 4
  | closing _ => 5
  | stopping _ _ => 6
  | aborting _ => 7
  | boundary _ => 8
  | started _ _ | resuming _ => 9
  | starting _ | pausing _ => 10
  | publishing _ | iterated _ _ => 11
  | marking _ | iterating _ => 12
  | preparing _ => 13

private theorem rank_le (thread : ExperimentThread σ) : thread.rank ≤ 13 := by
  cases thread <;> simp [rank]

private theorem eq_ended_of_rank {thread : ExperimentThread σ} (hspawned : thread.wasSpawned = true)
    (h : thread.rank = 0) :
    thread = .ended := by
  cases thread <;> simp [rank, wasSpawned] at h hspawned ⊢

/-- The thread is on a run that is marked as in progress and was not stopped yet. -/
def onRun (thread : ExperimentThread σ) : Bool := thread.isMarked && thread.held?.isSome

private theorem rank_of_onRun {thread : ExperimentThread σ} (h : thread.onRun = true) :
    6 ≤ thread.rank ∧ thread.rank ≤ 12 := by
  revert h
  cases thread <;> simp [onRun, isMarked, held?, rank]

/-- The thread is not on a run and clears what an abort has left behind before it is on one. -/
def forgetsAbort : ExperimentThread σ → Bool
  | receiving | received _ | preparing _ | ended => true
  | _ => false

end ExperimentThread

/-- The next step finds that the thread was asked to end, if it looks. -/
def ExperimentHost.Heeding {σ : Type} (host : ExperimentHost σ) : Prop :=
  match host.thread with
  | .boundary _ => host.controller.mustStop = true
  | .received _ => host.controller.events.shutdown = true
  | _ => True

/-- The thread was asked to end its run, or is about to stop the experiment. -/
def ExperimentHost.BoundToStop {σ : Type} (host : ExperimentHost σ) : Prop :=
  host.controller.mustStop = true ∨ ∃ e result, host.thread = .stopping e result

theorem ExperimentHost.Heeding.of_shutdown {σ : Type} {host : ExperimentHost σ}
    (h : host.controller.events.shutdown = true) : host.Heeding := by
  obtain ⟨c, thread, w⟩ := host
  cases thread with
  | boundary e =>
    show (c.events.abortRequested || c.events.shutdown) = true
    rw [show c.events.shutdown = true from h, Bool.or_true]
  | received code => exact h
  | _ => trivial

theorem ExperimentController.released_eq (c : ExperimentController) :
    c.released = (c.events.iterationStarted || c.mustStop) :=
  Bool.or_assoc _ _ _

private theorem ExperimentController.released_of_mustStop {c : ExperimentController} (h : c.mustStop = true) :
    c.released = true := by
  rw [released_eq, h, Bool.or_true]

theorem Beside.mustStop {σ : Type} {notes : List (ExperimentNote σ)} {c c' : ExperimentController}
    (h : Beside notes c c') (hstop : c.mustStop = true) : c'.mustStop = true := by
  rw [ExperimentController.mustStop, Bool.or_eq_true] at hstop ⊢
  exact hstop.imp (fun habort => h.abort.2 (Or.inl habort)) fun hshut => h.shutdown.2 (Or.inl hshut)

theorem Beside.mustStop_eq {σ : Type} {notes : List (ExperimentNote σ)} {c c' : ExperimentController}
    (h : Beside notes c c') (habort : .abort ∉ marks notes) (hshut : .shutdown ∉ marks notes) :
    c'.mustStop = c.mustStop := by
  rw [Bool.eq_iff_iff, ExperimentController.mustStop, ExperimentController.mustStop, Bool.or_eq_true, Bool.or_eq_true,
    h.abort, h.shutdown, or_iff_left habort, or_iff_left hshut]

theorem Beside.released {σ : Type} {notes : List (ExperimentNote σ)} {c c' : ExperimentController}
    (h : Beside notes c c') (hreleased : c.released = true) : c'.released = true := by
  rw [ExperimentController.released_eq, Bool.or_eq_true] at hreleased ⊢
  exact hreleased.imp (fun hstarted => h.started.2 (Or.inl hstarted)) h.mustStop

namespace ThreadStep

variable {σ : Type} {lab : Laboratory σ} {host next : ExperimentHost σ} {notes : List (ExperimentNote σ)}

/-- The calls of a step come first among those that were left. -/
theorem ending (hstep : ThreadStep lab host notes next) (hheed : host.Heeding) {rest : List (ExperimentCall σ)}
    (h : next.thread.Ending rest) : host.thread.Ending (calls notes ++ rest) := by
  cases hstep with
  | pass hpass => cases hpass.symm.trans hheed
  | skip hopen | find hopen => cases hopen.symm.trans hheed
  | @start c w e =>
    cases hresult : (e.start c w).1 with
    | success =>
      rw [hresult] at h
      obtain rfl := h
      exact Or.inr rfl
    | failure =>
      rw [hresult] at h
      obtain rfl := h
      exact Or.inl rfl
  | @iterate c w e result asked w' =>
    obtain rfl := h
    rw [calls_call_marks]
    exact ⟨result, rfl⟩
  | @conclude c w e result hfinal =>
    obtain rfl := h
    show [ExperimentCall.stop e result] = [.stop e result.orAbort]
    rw [IterationResult.orAbort, if_pos hfinal]
  | stop =>
    obtain rfl := h
    rfl
  | _ => exact h

theorem rank_lt (hstep : ThreadStep lab host notes next) (hheed : host.Heeding) :
    next.thread.rank < host.thread.rank := by
  cases hstep with
  | pass hpass => cases hpass.symm.trans hheed
  | skip hopen | find hopen => cases hopen.symm.trans hheed
  | _ => simp [ExperimentThread.rank]

/-- Whoever asks for the end is heard. -/
theorem raised (hstep : ThreadStep lab host notes next) :
    (.abort ∈ marks notes → next.controller.mustStop = true) ∧
      (.shutdown ∈ marks notes → next.controller.events.shutdown = true) := by
  cases hstep with
  | @iterate c w e result asked w' =>
    have hasked := Beside.foldl_apply (σ := σ) c asked
    refine ⟨fun hmem => ?_, fun hmem => hasked.shutdown.2 (Or.inr hmem)⟩
    rw [ExperimentController.mustStop, hasked.abort.2 (Or.inr hmem), Bool.true_or]
  | _ => simp [marks, mark?]

theorem kept (hstep : ThreadStep lab host notes next) :
    (host.controller.events.shutdown = true → next.controller.events.shutdown = true) ∧
      (host.controller.queue.closed = true → next.controller.queue.closed = true) := by
  cases hstep with
  | @iterate c w e result asked w' =>
    have hasked := Beside.foldl_apply (σ := σ) c asked
    exact ⟨fun hshut => hasked.shutdown.2 (Or.inl hshut), hasked.closed⟩
  | @close c w result => cases result <;> exact ⟨id, id⟩
  | _ => exact ⟨id, id⟩

private theorem onRun_or_closing (hstep : ThreadStep lab host notes next) (hrun : host.thread.onRun = true)
    (hbound : host.BoundToStop) :
    (next.thread.onRun = true ∧ next.BoundToStop) ∨ ∃ result, next.thread = .closing result := by
  -- the flag of an abort is cleared only on the way to stopping
  rcases hbound with hflag | ⟨e, result, hthread⟩
  · cases hstep with
    | publish | start | commence | heed | again | wait | resume | clear => exact Or.inl ⟨rfl, Or.inl hflag⟩
    | pass hpass => cases hpass.symm.trans hflag
    | @iterate c w e result asked w' =>
      exact Or.inl ⟨rfl, Or.inl ((Beside.foldl_apply (σ := σ) c asked).mustStop hflag)⟩
    | cut | conclude => exact Or.inl ⟨rfl, Or.inr ⟨_, _, rfl⟩⟩
    | refuse | stop => exact Or.inr ⟨_, rfl⟩
    | _ => cases hrun
  · cases hstep with
    | stop => exact Or.inr ⟨_, rfl⟩
    | _ => cases hthread

end ThreadStep

namespace ExperimentSystem

variable {σ : Type} (site : ExperimentSite σ)

/-! ### Runs that are asked to end -/

/-- From a place on a run that was asked to end: the run is still on, and whatever calls are left to it now, they come
after those since then as the calls that were left; or the calls that were left have been made.  -/
def Ends (start : ExperimentThread σ) (n : Nat) (notes : List (ExperimentNote σ)) (host : ExperimentHost σ) : Prop :=
  (host.thread.onRun = true ∧ host.BoundToStop ∧ host.thread.rank + n ≤ start.rank ∧
      ∀ rest, host.thread.Ending rest → start.Ending (calls notes ++ rest)) ∨
    ∃ ending, start.Ending ending ∧ ending <+: calls notes

namespace Ends

variable {site} {start : ExperimentThread σ} {n : Nat} {notes more : List (ExperimentNote σ)}
  {host next : ExperimentHost σ}

private theorem heeding (hrun : host.thread.onRun = true) (hbound : host.BoundToStop) : host.Heeding := by
  obtain ⟨c, thread, w⟩ := host
  cases thread with
  | boundary e => exact hbound.resolve_right fun ⟨_, _, heq⟩ => nomatch heq
  | received code => cases hrun
  | _ => trivial

theorem append (h : ∃ ending, start.Ending ending ∧ ending <+: calls notes) :
    ∃ ending, start.Ending ending ∧ ending <+: calls (notes ++ more) := by
  obtain ⟨ending, hending, hprefix⟩ := h
  rw [calls_append]
  exact ⟨ending, hending, hprefix.trans (List.prefix_append _ _)⟩

theorem threadStep (h : Ends start n notes host) (hstep : ThreadStep site.laboratory host more next) :
    Ends start (n + 1) (notes ++ more) next := by
  rcases h with ⟨hrun, hbound, hrank, hrest⟩ | hended
  · have hheed := heeding hrun hbound
    have hlt := hstep.rank_lt hheed
    rcases hstep.onRun_or_closing hrun hbound with ⟨hrun', hbound'⟩ | ⟨result, hclosing⟩
    · refine Or.inl ⟨hrun', hbound', by omega, fun rest hending => ?_⟩
      rw [calls_append, List.append_assoc]
      exact hrest _ (hstep.ending hheed hending)
    · have hnothing : next.thread.Ending [] := by
        rw [hclosing]
        rfl
      have hcalls : calls notes ++ (calls more ++ []) = calls (notes ++ more) := by rw [calls_append, List.append_nil]
      exact Or.inr ⟨_, hrest _ (hstep.ending hheed hnothing), hcalls ▸ List.prefix_refl _⟩
  · exact Or.inr (append hended)

private theorem blocked (h : Ends start n notes host) (hnone : host.step site.laboratory = none) :
    Ends start (n + 1) notes host := by
  rcases h with ⟨hrun, hbound, hrank, hrest⟩ | hended
  · -- on a run the thread only waits for a pass, and that wait ends with the flag
    rcases ExperimentHost.blocked_cases hnone with hthread | hthread | ⟨hthread, _⟩ | ⟨e, hthread, hwaiting⟩
    · rw [hthread] at hrun
      cases hrun
    · rw [hthread] at hrun
      cases hrun
    · rw [hthread] at hrun
      cases hrun
    · rcases hbound with hstop | ⟨_, _, hstopping⟩
      · cases hwaiting.symm.trans (ExperimentController.released_of_mustStop hstop)
      · cases hthread.symm.trans hstopping
  · exact Or.inr hended

theorem beside (h : Ends start n notes host) (hsame : next.thread = host.thread)
    (hbeside : Beside more host.controller next.controller) : Ends start n (notes ++ more) next := by
  rcases h with ⟨hrun, hbound, hrank, hrest⟩ | hended
  · rw [← hsame] at hrun hrank hrest
    rw [ExperimentHost.BoundToStop, ← hsame] at hbound
    refine Or.inl ⟨hrun, hbound.imp_left hbeside.mustStop, hrank, ?_⟩
    rw [calls_append, hbeside.calls, List.append_nil]
    exact hrest
  · exact Or.inr (append hended)

end Ends

/-- A run that is asked to end comes to an end at the next boundary. -/
private theorem run_ends {system : ExperimentSystem σ} (hrun : system.host.thread.onRun = true)
    (hflag : system.host.controller.mustStop = true) (later : List (Move σ)) :
    ∃ ending, system.host.thread.Ending ending ∧
      (calls (system.history site later) <+: ending ∨ ending <+: calls (system.history site later)) ∧
      (7 ≤ turns later → ending <+: calls (system.history site later)) := by
  have hstart : Ends system.host.thread 0 [] system.host := Or.inl ⟨hrun, Or.inl hflag, le_rfl, fun _ h => h⟩
  have hends := invariant_turns site (P := Ends system.host.thread) (fun _ _ _ _ _ h hstep => h.threadStep hstep)
    (fun _ _ _ h hnone => h.blocked hnone) (fun _ _ _ _ _ h hsame hbeside => h.beside hsame hbeside) [] hstart later
  rw [List.nil_append] at hends
  rcases hends with ⟨hrun', _, hrank, hrest⟩ | ⟨ending, hending, hprefix⟩
  · obtain ⟨rest, hending⟩ := ExperimentThread.exists_ending (system.after site later).host.thread
    refine ⟨_, hrest rest hending, Or.inl (List.prefix_append _ _), fun hturns => ?_⟩
    have hbefore := (ExperimentThread.rank_of_onRun hrun).2
    have hnow := (ExperimentThread.rank_of_onRun hrun').1
    omega
  · exact ⟨ending, hending, Or.inr hprefix, fun _ => hprefix⟩

/-! ### Shutting down -/

/-- After a shutdown only the calls that are left are made. -/
def Leaves (start : ExperimentThread σ) (notes : List (ExperimentNote σ)) (host : ExperimentHost σ) : Prop :=
  host.controller.events.shutdown = true ∧ ∀ rest, host.thread.Ending rest → start.Ending (calls notes ++ rest)

theorem leaves {system : ExperimentSystem σ} (hshut : system.host.controller.events.shutdown = true)
    (later : List (Move σ)) :
    Leaves system.host.thread (system.history site later) (system.after site later).host := by
  refine invariant site (P := Leaves system.host.thread) ?_ ?_ [] ⟨hshut, fun _ h => h⟩ later
  · intro notes host more next ⟨hshut, hrest⟩ hstep
    refine ⟨hstep.kept.1 hshut, fun rest hending => ?_⟩
    rw [calls_append, List.append_assoc]
    exact hrest _ (hstep.ending (.of_shutdown hshut) hending)
  · intro notes host more next ⟨hshut, hrest⟩ hsame hbeside
    refine ⟨hbeside.shutdown.2 (Or.inl hshut), ?_⟩
    rw [calls_append, hbeside.calls, List.append_nil, hsame]
    exact hrest

theorem wasSpawned_after (world : σ) (schedule : List (Move σ)) :
    ((initial world).after site schedule).host.thread.wasSpawned = true := by
  refine invariant site (P := fun _ host => host.thread.wasSpawned = true) ?_ ?_ [] rfl schedule
  · intro notes host more next _ hstep
    cases hstep <;> rfl
  · intro notes host more next h hsame _
    rwa [hsame]

/-- The thread, which was shut down and finds its mailbox closed, has ended or is on its way. -/
structure Leaving (n : Nat) (host : ExperimentHost σ) : Prop where
  spawned : host.thread.wasSpawned = true
  shutdown : host.controller.events.shutdown = true
  closed : host.controller.queue.closed = true
  rank : host.thread = .ended ∨ host.thread.rank + n ≤ 13

namespace Leaving

variable {site} {n : Nat} {more : List (ExperimentNote σ)} {host next : ExperimentHost σ}

theorem threadStep (h : Leaving n host) (hstep : ThreadStep site.laboratory host more next) : Leaving (n + 1) next where
  spawned := by cases hstep <;> rfl
  shutdown := hstep.kept.1 h.shutdown
  closed := hstep.kept.2 h.closed
  rank := by
    have hlt := hstep.rank_lt (.of_shutdown h.shutdown)
    rcases h.rank with hended | hrank
    · rw [hended] at hlt
      exact absurd hlt (Nat.not_lt_zero _)
    · exact Or.inr (by omega)

private theorem ended_of_blocked (h : Leaving n host) (hnone : host.step site.laboratory = none) :
    host.thread = .ended := by
  rcases ExperimentHost.blocked_cases hnone with hthread | hthread | ⟨_, hwaiting⟩ | ⟨e, _, hwaiting⟩
  · have hspawned := h.spawned
    rw [hthread] at hspawned
    cases hspawned
  · exact hthread
  · rw [Mailbox.peek_eq_waiting_iff] at hwaiting
    cases hwaiting.2.symm.trans h.closed
  · rw [ExperimentController.released, h.shutdown, Bool.or_true] at hwaiting
    cases hwaiting

theorem beside (h : Leaving n host) (hsame : next.thread = host.thread)
    (hbeside : Beside more host.controller next.controller) : Leaving n next where
  spawned := hsame ▸ h.spawned
  shutdown := hbeside.shutdown.2 (Or.inl h.shutdown)
  closed := hbeside.closed h.closed
  rank := hsame ▸ h.rank

end Leaving

/-- Once the mailbox is closed too, the thread ends. -/
private theorem ended_after {system : ExperimentSystem σ} (hspawned : system.host.thread.wasSpawned = true)
    (hshut : system.host.controller.events.shutdown = true) (hclosed : system.host.controller.queue.closed = true)
    {later : List (Move σ)} (hturns : 13 ≤ turns later) : (system.after site later).host.thread = .ended := by
  have hstart : Leaving 0 system.host := ⟨hspawned, hshut, hclosed, Or.inr system.host.thread.rank_le⟩
  have hleaving := invariant_turns site (P := fun n _ => Leaving n) (fun _ _ _ _ _ h hstep => h.threadStep hstep)
    (fun _ _ _ h hnone => ⟨h.spawned, h.shutdown, h.closed, Or.inl (h.ended_of_blocked hnone)⟩)
    (fun _ _ _ _ _ h hsame hbeside => h.beside hsame hbeside) [] hstart later
  rcases hleaving.rank with hended | hrank
  · exact hended
  · exact ExperimentThread.eq_ended_of_rank hleaving.spawned (by omega)

/-! ### An abort without a run -/

private theorem start_abort (c : ExperimentController) : c.abort.start = c.start.abort := by
  rw [ExperimentController.start, ExperimentController.start, show c.abort.info = c.info from rfl]
  cases c.info.requested <;> rfl

/-- A step of the mission thread does not look for an abort. -/
private theorem missionStep_control_abort (system : ExperimentSystem σ) :
    (system.control .abort).missionStep site = (system.missionStep site).control .abort := by
  obtain ⟨⟨c, thread, w⟩, mission, admitted⟩ := system
  cases mission with
  | between => rfl
  | releasing => rfl
  | choosing rest =>
    cases rest with
    | nil =>
      show (if site.observing = true then _ else _) = control .abort (if site.observing = true then _ else _)
      split <;> rfl
    | cons action rest =>
      have hcondition : action.hook.condition () ((⟨c, thread, w⟩ : ExperimentHost σ).control .abort) =
          action.hook.condition () ⟨c, thread, w⟩ := by
        cases action <;> rfl
      simp only [missionStep, control, hcondition]
      split <;> rfl
  | acting action rest =>
    cases action with
    | start =>
      show ExperimentSystem.mk ⟨c.abort.start, thread, w⟩ (.choosing rest) admitted = ⟨⟨c.start.abort, thread, w⟩, _, _⟩
      rw [start_abort]
      rfl
    | kick | other name change => rfl

/-- Nobody but the experiment thread looks for an abort. -/
private theorem perform_control_abort {move : Move σ} (hmove : move.isThread = false) (system : ExperimentSystem σ) :
    (system.control .abort).noted move = system.noted move ∧
      (system.control .abort).perform site move = (system.perform site move).control .abort := by
  cases move with
  | thread => cases hmove
  | mission => exact ⟨rfl, missionStep_control_abort site system⟩
  | ask code =>
    refine ⟨rfl, ?_⟩
    show (if system.host.controller.inProgress = true then _ else _) =
      control .abort (if system.host.controller.inProgress = true then _ else _)
    split <;> rfl
  | file code =>
    refine ⟨rfl, ?_⟩
    show (if code ∈ system.admitted then _ else _) = control .abort (if code ∈ system.admitted then _ else _)
    split <;> rfl
  | close =>
    refine ⟨rfl, ?_⟩
    show (if system.host.controller.events.shutdown = true then _ else _) =
      control .abort (if system.host.controller.events.shutdown = true then _ else _)
    split <;> rfl
  | abort | shutdown | disturb change => exact ⟨rfl, rfl⟩

/-- Before a run the thread either does not look for an abort or forgets it. -/
private theorem step_control_abort (lab : Laboratory σ) {host : ExperimentHost σ}
    (h : host.thread.forgetsAbort = true) :
    (host.control .abort).notes = host.notes ∧
      ((∃ next, (host.control .abort).step lab = some next ∧ host.step lab = some next) ∨
        ((host.control .abort).step lab = (host.step lab).map (ExperimentHost.control .abort) ∧ host.notes = [] ∧
          ∀ next, host.step lab = some next → next.thread.forgetsAbort = true)) := by
  obtain ⟨c, thread, w⟩ := host
  cases thread with
  | receiving =>
    refine ⟨rfl, Or.inr ⟨?_, rfl, fun next hnext => ?_⟩⟩
    · simp only [ExperimentHost.step, ExperimentHost.control, show c.abort.queue = c.queue from rfl]
      cases c.queue.peek <;> rfl
    · cases ThreadStep.of_step hnext <;> rfl
  | received code =>
    refine ⟨rfl, Or.inr ⟨?_, rfl, fun next hnext => ?_⟩⟩
    · simp only [ExperimentHost.step, ExperimentHost.control, show c.abort.events.shutdown = c.events.shutdown from rfl]
      split
      · rfl
      · cases lab.find? code <;> rfl
    · cases ThreadStep.of_step hnext <;> rfl
  | preparing e => exact ⟨rfl, Or.inl ⟨_, rfl, rfl⟩⟩
  | ended =>
    refine ⟨rfl, Or.inr ⟨rfl, rfl, fun next hnext => ?_⟩⟩
    cases hnext
  | _ => cases h

/-- A turn after an abort that found no run: either the abort is forgotten, or it still is to be. -/
private theorem turn_control_abort {system : ExperimentSystem σ} (h : system.host.thread.forgetsAbort = true)
    (move : Move σ) :
    (system.control .abort).noted move = system.noted move ∧
      ((system.control .abort).perform site move = system.perform site move ∨
        ((system.control .abort).perform site move = (system.perform site move).control .abort ∧
          (system.perform site move).host.thread.forgetsAbort = true ∧ .prepared ∉ marks (system.noted move))) := by
  cases hmove : move.isThread with
  | false =>
    obtain ⟨hnoted, hperform⟩ := perform_control_abort site hmove system
    obtain ⟨hsame, hbeside⟩ := turn_beside site hmove system
    exact ⟨hnoted, Or.inr ⟨hperform, hsame ▸ h, hbeside.prepared⟩⟩
  | true =>
    cases move <;> cases hmove
    obtain ⟨hnotes, ⟨next, habort, hnext⟩ | ⟨hstep, hquiet, hforgets⟩⟩ := step_control_abort site.laboratory h
    · refine ⟨hnotes, Or.inl ?_⟩
      rw [perform, perform, hnext, show (system.control .abort).host.step site.laboratory = some next from habort]
      rfl
    · refine ⟨hnotes, Or.inr ?_⟩
      rw [perform, perform, show (system.control .abort).host.step site.laboratory = _ from hstep, noted, hquiet]
      cases hnext : system.host.step site.laboratory with
      | none => exact ⟨rfl, h, List.not_mem_nil⟩
      | some next => exact ⟨rfl, hforgets next hnext, List.not_mem_nil⟩

/-- An abort before a run makes no difference. -/
theorem abort_forgotten {system : ExperimentSystem σ} (h : system.host.thread.forgetsAbort = true)
    (later : List (Move σ)) :
    (system.control .abort).history site later = system.history site later ∧
      (.prepared ∈ marks (system.history site later) →
        (system.control .abort).after site later = system.after site later) := by
  induction later generalizing system with
  | nil => exact ⟨rfl, fun hmem => absurd hmem List.not_mem_nil⟩
  | cons move later ih =>
    obtain ⟨hnoted, hsame | ⟨hperform, hforgets, hquiet⟩⟩ := turn_control_abort site h move
    · rw [history, history, hnoted, hsame]
      exact ⟨rfl, fun _ => congrArg (after site later) hsame⟩
    · obtain ⟨hhistory, hafter⟩ := ih hforgets
      rw [history, history, hnoted, hperform, hhistory, marks_append, List.mem_append]
      refine ⟨rfl, fun hmem => ?_⟩
      show ((system.control .abort).perform site move).after site later = (system.perform site move).after site later
      rw [hperform]
      exact hafter (hmem.resolve_left hquiet)

/-! ### Asking for the end -/

private theorem raised_after_turn (system : ExperimentSystem σ) (move : Move σ) :
    (.abort ∈ marks (system.noted move) → (system.perform site move).host.controller.mustStop = true) ∧
      (.shutdown ∈ marks (system.noted move) →
        (system.perform site move).host.controller.events.shutdown = true) := by
  rcases turn_cases site move system with hstep | ⟨_, hbeside⟩
  · exact hstep.raised
  · refine ⟨fun hmem => ?_, fun hmem => hbeside.shutdown.2 (Or.inr hmem)⟩
    rw [ExperimentController.mustStop, hbeside.abort.2 (Or.inr hmem), Bool.true_or]

/-- Whatever the order of turns: an abort or a shutdown in the middle of a run leaves that run only the calls of its
ending, and it makes them within seven turns of the thread, also from a wait for the next pass.  An abort that finds
the thread at its empty mailbox makes no difference.  After a shutdown there are no calls but those of the ending, and
once the mailbox is closed the thread ends within thirteen turns.  -/
theorem ends_when_asked (world : σ) (before : List (Move σ)) :
    let start := (initial world).after site before
    (∀ move later, (.abort ∈ marks (start.noted move) ∨ .shutdown ∈ marks (start.noted move)) →
        let system := start.perform site move
        system.host.thread.onRun = true →
        ∃ ending, system.host.thread.Ending ending ∧
          (calls (system.history site later) <+: ending ∨ ending <+: calls (system.history site later)) ∧
          (7 ≤ turns later → ending <+: calls (system.history site later))) ∧
      (∀ later, start.host.thread = .receiving → start.host.controller.queue.peek = .waiting →
        (start.perform site .abort).history site later = start.history site later ∧
          (.prepared ∈ marks (start.history site later) →
            (start.perform site .abort).after site later = start.after site later)) ∧
      (∀ move later, .shutdown ∈ marks (start.noted move) →
        let system := start.perform site move
        ∃ ending, system.host.thread.Ending ending ∧
          calls (system.history site later) <+: ending ∧
          ∀ first second, later = first ++ second → (system.after site first).host.controller.queue.closed = true →
            13 ≤ turns second →
              (system.after site later).host.thread = .ended ∧ calls (system.history site later) = ending) := by
  intro start
  refine ⟨?_, ?_, ?_⟩
  · intro move later hasked system hrun
    have hraised := raised_after_turn site start move
    have hstop : system.host.controller.mustStop = true := by
      rcases hasked with habort | hshut
      · exact hraised.1 habort
      · rw [ExperimentController.mustStop, hraised.2 hshut, Bool.or_true]
    exact run_ends site hrun hstop later
  · intro later hthread _
    refine abort_forgotten site ?_ later
    rw [hthread]
    rfl
  · intro move later hasked system
    have hshut : system.host.controller.events.shutdown = true := (raised_after_turn site start move).2 hasked
    obtain ⟨rest, hrest⟩ := ExperimentThread.exists_ending (system.after site later).host.thread
    have hleft := (leaves site hshut later).2
    refine ⟨_, hleft rest hrest, List.prefix_append _ _, ?_⟩
    rintro first second rfl hclosed hturns
    have hspawned := wasSpawned_after site world (before ++ [move] ++ first)
    rw [after_append, after_concat] at hspawned
    have hended : (system.after site (first ++ second)).host.thread = .ended := by
      rw [after_append]
      exact ended_after site hspawned (leaves site hshut first).1 hclosed hturns
    rw [hended] at hrest
    obtain rfl := hrest
    exact ⟨hended, (List.append_nil _).symm⟩

/-- An experiment that waits for the next pass after each iteration. -/
def patient : Experiment Unit := ⟨7, fun _ w => (.success, w), fun _ w => (.waitForNextCycle, [], w), fun _ w => w⟩

def patientSite : ExperimentSite Unit := ⟨⟨[patient], fun _ w => w⟩, [.start, .kick], true⟩

/-- A request, the first turns of the pass that hands it over, and the thread until it waits. -/
def untilFirstWait : List (Move Unit) :=
  [.ask 7, .file 7] ++ List.replicate 3 .mission ++ List.replicate 10 .thread

theorem ends_when_asked_in_first_wait :
    let waiting := (initial ()).after patientSite untilFirstWait
    [.stop patient .abort] <+:
        calls ((waiting.perform patientSite .abort).history patientSite (List.replicate 7 .thread)) ∧
      ((initial ()).perform patientSite .abort).after patientSite untilFirstWait =
        (initial ()).after patientSite untilFirstWait ∧
      ((waiting.perform patientSite .shutdown).after patientSite (.close :: List.replicate 13 .thread)).host.thread =
        .ended := by
  intro waiting
  obtain ⟨hrun, _, hshutdown⟩ := ends_when_asked patientSite () untilFirstWait
  refine ⟨?_, ?_, ?_⟩
  · have hasked : .abort ∈ marks (waiting.noted .abort) := List.mem_singleton_self _
    obtain ⟨ending, hending, _, hleft⟩ := hrun .abort (List.replicate 7 .thread) (Or.inl hasked) rfl
    obtain rfl : ending = [.stop patient .abort] := hending
    exact hleft (by decide)
  · exact ((ends_when_asked patientSite () []).2.1 untilFirstWait rfl rfl).2 (by decide)
  · have hasked : .shutdown ∈ marks (waiting.noted .shutdown) := List.mem_singleton_self _
    obtain ⟨ending, _, _, hended⟩ := hshutdown .shutdown (.close :: List.replicate 13 .thread) hasked
    exact (hended [.close] _ rfl rfl (by decide)).1

end ExperimentSystem

end Spacecraft
