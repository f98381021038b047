import Spacecraft.Proofs.Experiment.Ending
import Spacecraft.Proofs.Experiment.Passes

/-!
# Pacing

An experiment that waits goes on with the passes.  Each time it goes on after a wait it spends what a pass gave
(`Balanced`): the flag, or after the flag was cleared the right to one iteration (`owed`).  A pass that finds the thread
waiting gives exactly once: the action finds a run in progress, and nothing is given after it (`Unreached`, `Reached`).
-/

namespace Spacecraft

open ExperimentCall ExperimentNote

/-! ### Iterations after a wait -/

namespace ExperimentCall

variable {σ : Type}

/-- The experiment is to go on after the next pass. -/
def waits : ExperimentCall σ → Bool
  | iteration _ .waitForNextCycle => true
  | _ => false

def isIteration : ExperimentCall σ → Bool
  | iteration _ _ => true
  | start _ _ | stop _ _ => false

/-- The last call left the experiment to wait for the next pass. -/
def lastWaits (calls : List (ExperimentCall σ)) : Bool := calls.getLast?.any waits

private theorem lastWaits_concat (calls : List (ExperimentCall σ)) (call : ExperimentCall σ) :
    lastWaits (calls ++ [call]) = call.waits := by
  rw [lastWaits, List.getLast?_concat, Option.any_some]

/-- The number of iterations that directly follow one after which the experiment was to wait. -/
def resumptions : List (ExperimentCall σ) → Nat
  | first :: second :: rest => (if first.waits && second.isIteration then 1 else 0) + resumptions (second :: rest)
  | _ => 0

private theorem resumptions_concat (calls : List (ExperimentCall σ)) (call : ExperimentCall σ) :
    resumptions (calls ++ [call]) = resumptions calls + if lastWaits calls && call.isIteration then 1 else 0 := by
  induction calls using resumptions.induct with
  | case1 first second rest ih =>
    have hlast : lastWaits (first :: second :: rest) = lastWaits (second :: rest) := by
      rw [lastWaits, List.getLast?_cons_cons, lastWaits]
    rw [hlast]
    simp only [List.cons_append, resumptions] at ih ⊢
    rw [ih, Nat.add_assoc]
  | case2 calls hshort =>
    match calls with
    | [] => rfl
    | [first] => simp [resumptions, lastWaits]
    | first :: second :: rest => exact absurd rfl (hshort first second rest)

end ExperimentCall

/-- The number of passes that let a waiting experiment go on. -/
def signallingPasses (marks : List ExperimentMark) : Nat := (marks.splitOn .began).countP fun pass => .signalled ∈ pass

/-- Where no pass does so twice, these passes are counted by what they did. -/
private theorem count_signalled_le {marks : List ExperimentMark} (h : AllSound marks) :
    marks.count .signalled ≤ signallingPasses marks := by
  induction hlength : marks.length using Nat.strong_induction_on generalizing marks with
  | _ n ih =>
    by_cases hbegan : .began ∈ marks
    · obtain ⟨earlier, later, rfl⟩ := List.append_of_mem hbegan
      rw [List.length_append, List.length_cons] at hlength
      have hearlier := ih earlier.length (by omega) (h.part (List.prefix_append _ _).isInfix) rfl
      have hlater := ih later.length (by omega) (h.part ⟨earlier ++ [.began], [], by simp⟩) rfl
      rw [signallingPasses, List.splitOn_append_cons_self, List.countP_append, List.count_append,
        List.count_cons_of_ne (by simp)]
      exact Nat.add_le_add hearlier hlater
    · rw [signallingPasses, List.splitOn_eq_singleton hbegan, List.countP_singleton]
      by_cases hsignalled : .signalled ∈ marks
      · rw [if_pos (decide_eq_true hsignalled)]
        exact (h marks (List.infix_refl _) hbegan).1
      · rw [List.count_eq_zero.2 hsignalled]
        exact Nat.zero_le _

/-! ### What is owed to the thread -/

/-- The iteration that the thread may still make after a wait that is over. -/
def credit {σ : Type} (run : List (ExperimentCall σ)) (host : ExperimentHost σ) : Nat :=
  match host.thread with
  | .boundary _ => if lastWaits run && !host.controller.mustStop then 1 else 0
  | .iterating _ => if lastWaits run then 1 else 0
  | _ => 0

/-- What the passes gave and the thread has not used up. -/
def owed {σ : Type} (run : List (ExperimentCall σ)) (host : ExperimentHost σ) : Nat :=
  credit run host + if host.controller.events.iterationStarted then 1 else 0

/-- What the place of the thread tells of the run and of the flags. -/
def Placed {σ : Type} (run : List (ExperimentCall σ)) (host : ExperimentHost σ) : Prop :=
  match host.thread with
  | .started _ _ | .iterated _ .loopImmediately => lastWaits run = false
  | .resuming _ => host.controller.released = true
  | _ => True

/-- The run has spent no more than the passes have given since it was prepared. -/
structure Balanced {σ : Type} (notes : List (ExperimentNote σ)) (host : ExperimentHost σ) : Prop where
  balance : resumptions (calls (thisRun notes)) + owed (calls (thisRun notes)) host ≤
    (marks (thisRun notes)).count .signalled
  placed : Placed (calls (thisRun notes)) host

namespace Balanced

variable {σ : Type} {notes more : List (ExperimentNote σ)} {host next : ExperimentHost σ}

/-- A turn that is paid for. -/
theorem turn (h : Balanced notes host) (hmore : .prepared ∉ marks more)
    (hpaid : ∀ run, Placed run host →
      resumptions (run ++ calls more) + owed (run ++ calls more) next ≤
        resumptions run + owed run host + (marks more).count .signalled)
    (hplaced : ∀ run, Placed run host → Placed (run ++ calls more) next) : Balanced (notes ++ more) next := by
  have hbalance := h.balance
  have hturn := hpaid _ h.placed
  constructor
  · rw [thisRun_append notes hmore, calls_append, marks_append, List.count_append]
    omega
  · rw [thisRun_append notes hmore, calls_append]
    exact hplaced _ h.placed

/-- A turn without a call. -/
theorem quiet (h : Balanced notes host) (hmore : .prepared ∉ marks more) (hcalls : calls more = [])
    (howed : ∀ run, Placed run host → owed run next ≤ owed run host + (marks more).count .signalled)
    (hplaced : ∀ run, Placed run host → Placed run next) : Balanced (notes ++ more) next := by
  refine h.turn hmore (fun run hrun => ?_) (fun run hrun => ?_)
  · rw [hcalls, List.append_nil, Nat.add_assoc]
    exact Nat.add_le_add_left (howed run hrun) _
  · rw [hcalls, List.append_nil]
    exact hplaced run hrun

/-- A step that leaves the flag alone. -/
private theorem still (h : Balanced notes host) (hmore : .prepared ∉ marks more) (hcalls : calls more = [])
    (hflag : next.controller.events.iterationStarted = host.controller.events.iterationStarted)
    (hcredit : ∀ run, Placed run host → credit run next ≤ credit run host)
    (hplaced : ∀ run, Placed run host → Placed run next) : Balanced (notes ++ more) next := by
  refine h.quiet hmore hcalls (fun run hrun => ?_) hplaced
  rw [owed, owed, hflag]
  exact (Nat.add_le_add_right (hcredit run hrun) _).trans (Nat.le_add_right _ _)

theorem beside (h : Balanced notes host) (hsame : next.thread = host.thread)
    (hbeside : Beside more host.controller next.controller) : Balanced (notes ++ more) next := by
  obtain ⟨c, thread, w⟩ := host
  obtain ⟨c', thread', w'⟩ := next
  obtain rfl : thread = thread' := hsame.symm
  refine h.quiet hbeside.prepared hbeside.calls (fun run _ => ?_) (fun run hrun => ?_)
  · have hcredit : credit run ⟨c', thread, w'⟩ ≤ credit run ⟨c, thread, w⟩ := by
      cases thread with
      | boundary e =>
        cases hstop : c.mustStop with
        | true => simp [credit, hstop, hbeside.mustStop hstop]
        | false => cases hstop' : c'.mustStop <;> simp [credit, hstop, hstop']
      | _ => exact Nat.le_refl _
    have hflag : (if c'.events.iterationStarted then 1 else 0) ≤
        (if c.events.iterationStarted then 1 else 0) + (marks more).count .signalled := by
      cases hstarted : c'.events.iterationStarted with
      | false => exact Nat.zero_le _
      | true =>
        rcases hbeside.started.1 hstarted with hbefore | hsignalled
        · rw [hbefore]
          exact Nat.le_add_right _ _
        · exact (List.count_pos_iff.2 hsignalled).trans_le (Nat.le_add_left _ _)
    rw [owed, owed, Nat.add_assoc]
    exact Nat.add_le_add hcredit hflag
  · cases thread with
    | resuming e => exact hbeside.released hrun
    | iterated e result => cases result <;> exact hrun
    | _ => exact hrun

theorem threadStep {lab : Laboratory σ} (h : Balanced notes host) (hstep : ThreadStep lab host more next) :
    Balanced (notes ++ more) next := by
  have hsignalled : .signalled ∉ marks more := fun hmem => nomatch hstep.offPass.marks _ hmem
  cases hstep with
  | prepare =>
    constructor
    · rw [thisRun_prepared]
      exact Nat.le_refl 0
    · trivial
  | @start c w e =>
    refine h.turn List.not_mem_nil (fun run _ => ?_) (fun run _ => lastWaits_concat run _)
    show resumptions (run ++ [.start e _]) + _ ≤ resumptions run + _ + 0
    rw [resumptions_concat]
    simp [isIteration, owed, credit]
  | @iterate c w e result asked w' =>
    have hasked := Beside.foldl_apply (σ := σ) c asked
    have hflag := hasked.started_eq hsignalled
    refine h.turn hasked.prepared (fun run _ => ?_) (fun run _ => ?_)
    · -- the iteration uses up the credit of the wait before it
      rw [calls_call_marks, resumptions_concat, owed, owed, hflag]
      simp only [isIteration, Bool.and_true, credit]
      omega
    · rw [calls_call_marks]
      cases result with
      | loopImmediately => exact lastWaits_concat run _
      | finished | waitForNextCycle | failure | abort => trivial
  | @stop c w e result =>
    refine h.turn List.not_mem_nil (fun run _ => ?_) (fun run _ => trivial)
    show resumptions (run ++ [.stop e result]) + _ ≤ resumptions run + _ + 0
    rw [resumptions_concat]
    simp [isIteration, owed, credit]
  | @clear c w e =>
    refine h.quiet List.not_mem_nil rfl (fun run hreleased => ?_) (fun _ _ => trivial)
    -- the thread got here with the flag, or because it is to stop
    have hreleased : (c.events.iterationStarted || c.mustStop) = true := c.released_eq ▸ hreleased
    show (if lastWaits run && !c.mustStop then 1 else 0) + 0 ≤ 0 + (if c.events.iterationStarted then 1 else 0) + 0
    cases hstarted : c.events.iterationStarted with
    | true => split <;> decide
    | false =>
      rw [hstarted, Bool.false_or] at hreleased
      simp [hreleased]
  | pass hpass =>
    -- nobody asked for the end, so the credit stays
    refine h.still List.not_mem_nil rfl rfl (fun run _ => ?_) (fun _ _ => trivial)
    simp [credit, hpass]
  | heed => exact h.still List.not_mem_nil rfl rfl (fun _ _ => Nat.zero_le _) (fun _ _ => trivial)
  | commence | again =>
    refine h.still List.not_mem_nil rfl rfl (fun run hrun => ?_) (fun _ _ => trivial)
    have hlast : lastWaits run = false := hrun
    simp [credit, hlast]
  | resume hreleased => exact h.still (by simp [marks, mark?]) rfl rfl (fun _ _ => Nat.le_refl _) (fun _ _ => hreleased)
  | @close c w result =>
    cases result <;> exact h.still List.not_mem_nil rfl rfl (fun _ _ => Nat.le_refl _) (fun _ _ => trivial)
  | _ => exact h.still List.not_mem_nil rfl rfl (fun _ _ => Nat.le_refl _) (fun _ _ => trivial)

end Balanced

namespace ExperimentSystem

variable {σ : Type} {site : ExperimentSite σ}

private theorem balanced (site : ExperimentSite σ) (world : σ) (schedule : List (Move σ)) :
    Balanced ((initial world).history site schedule) ((initial world).after site schedule).host := by
  have hinitial : Balanced [] (initial world).host := ⟨Nat.le_refl 0, trivial⟩
  exact invariant site (fun _ _ _ _ h hstep => h.threadStep hstep)
    (fun _ _ _ _ h hsame hbeside => h.beside hsame hbeside) [] hinitial schedule

/-! ### A pass that finds the thread waiting -/

/-- The places of a pass that has yet to let the thread go on. -/
def BeforeRelease (pass : List ExperimentMark) : MissionPlace σ → Prop
  | .between => .began ∉ pass
  | .choosing rest | .acting (.other _ _) rest => KickAhead rest ∧ pass.count .began = 1
  | .acting .kick rest => KickBehind rest ∧ pass.count .began = 1
  | .acting .start _ | .releasing => False

/-- The places of a pass that has let the thread go on. -/
def AfterRelease (c : ExperimentController) : MissionPlace σ → Prop
  | .between => True
  | .choosing rest | .acting (.other _ _) rest => KickBehind rest ∧ c.kicked = true
  | .acting .start _ | .acting .kick _ | .releasing => False

/-- The pass has yet to let the thread go on, which is blocked. -/
structure Unreached (notes : List (ExperimentNote σ)) (system : ExperimentSystem σ) : Prop where
  waiting : ∃ e, system.host.thread = .pausing e
  released : system.host.controller.released = false
  inProgress : system.host.controller.inProgress = true
  pendingStart : system.host.controller.pendingStart = false
  signalled : .signalled ∉ marks notes
  resumed : .resumed ∉ marks notes
  place : BeforeRelease (marks notes) system.mission

/-- The thread is about to go on, or has gone on once and will not do so again. -/
def Resuming (resumed : Nat) (host : ExperimentHost σ) : Prop :=
  (resumed = 0 ∧ (∃ e, host.thread = .pausing e) ∧ host.controller.events.iterationStarted = true) ∨
    (resumed = 1 ∧ ((∃ e, host.thread = .resuming e) ∨ host.controller.events.iterationStarted = false))

/-- The pass has let the thread go on, which goes on once, and nothing more comes of the pass. -/
structure Reached (notes : List (ExperimentNote σ)) (system : ExperimentSystem σ) : Prop where
  mustStop : system.host.controller.mustStop = false
  began : (marks notes).count .began = 1
  signalled : (marks notes).count .signalled = 1
  resumed : Resuming ((marks notes).count .resumed) system.host
  place : AfterRelease system.host.controller system.mission

/-- Nobody asks for the end of the run, and there is at most one pass. -/
structure Undisturbed (marks : List ExperimentMark) : Prop where
  abort : .abort ∉ marks
  shutdown : .shutdown ∉ marks
  began : marks.count .began ≤ 1

private theorem Undisturbed.of_append {earlier later : List ExperimentMark} (h : Undisturbed (earlier ++ later)) :
    Undisturbed earlier ∧ .abort ∉ later ∧ .shutdown ∉ later := by
  obtain ⟨habort, hshut, hbegan⟩ := h
  rw [List.mem_append, not_or] at habort hshut
  rw [List.count_append] at hbegan
  exact ⟨⟨habort.1, hshut.1, (Nat.le_add_right _ _).trans hbegan⟩, habort.2, hshut.2⟩

theorem BeforeRelease.append {pass more : List ExperimentMark} {place : MissionPlace σ} (h : BeforeRelease pass place)
    (hbegan : .began ∉ more) : BeforeRelease (pass ++ more) place := by
  have hcount : (pass ++ more).count .began = pass.count .began := by
    rw [List.count_append, List.count_eq_zero.2 hbegan, Nat.add_zero]
  cases place with
  | between =>
    rw [BeforeRelease, List.mem_append]
    exact not_or_intro h hbegan
  | choosing rest => exact ⟨h.1, hcount.trans h.2⟩
  | acting action rest =>
    cases action with
    | start => exact h
    | kick | other name change => exact ⟨h.1, hcount.trans h.2⟩
  | releasing => exact h

private theorem AfterRelease.of_kicked {c c' : ExperimentController} {place : MissionPlace σ} (h : AfterRelease c place)
    (hkicked : c'.kicked = c.kicked) : AfterRelease c' place := by
  cases place with
  | between | releasing => exact h
  | choosing rest => exact ⟨h.1, hkicked.trans h.2⟩
  | acting action rest =>
    cases action with
    | start | kick => exact h
    | other name change => exact ⟨h.1, hkicked.trans h.2⟩

namespace Unreached

variable {notes : List (ExperimentNote σ)} {system : ExperimentSystem σ}

/-- While the thread is blocked, whatever is done beside it and beside the pass leaves it blocked. -/
theorem other (h : Unreached notes system) {move : Move σ} (hmove : move.isMission = false)
    (habort : .abort ∉ marks (system.noted move)) (hshut : .shutdown ∉ marks (system.noted move)) :
    Unreached (notes ++ system.noted move) (system.perform site move) := by
  obtain ⟨hmission, hoff⟩ := offPass_perform site hmove system
  obtain ⟨e, hthread⟩ := h.waiting
  obtain ⟨hsame, hbeside⟩ := (turn_cases site move system).resolve_left fun hstep =>
    Bool.false_ne_true (h.released.symm.trans (hstep.of_pausing hthread).1)
  have hsignalled : .signalled ∉ marks (system.noted move) := fun hmem => nomatch hoff.marks _ hmem
  have hbegan : .began ∉ marks (system.noted move) := fun hmem => nomatch hoff.marks _ hmem
  refine ⟨⟨e, hsame.trans hthread⟩, ?_, hbeside.inProgress.trans h.inProgress,
    hoff.pendingStart.trans h.pendingStart, ?_, ?_, ?_⟩
  · rw [ExperimentController.released_eq, hbeside.started_eq hsignalled, hbeside.mustStop_eq habort hshut,
      ← ExperimentController.released_eq]
    exact h.released
  · rw [marks_append, List.mem_append]
    exact not_or_intro h.signalled hsignalled
  · rw [marks_append, List.mem_append]
    exact not_or_intro h.resumed hbeside.resumed
  · rw [hmission, marks_append]
    exact h.place.append hbegan

/-- The pass finds a run in progress, so it hands nothing over and lets the thread go on. -/
theorem missionStep (h : Unreached notes system) (hpaced : site.Paced) :
    Unreached (notes ++ system.noted .mission) (system.perform site .mission) ∨
      Reached (notes ++ system.noted .mission) (system.perform site .mission) := by
  obtain ⟨⟨e, hthread⟩, hreleased, hprogress, hpending, hsignalled, hresumed, hplace⟩ := h
  obtain ⟨⟨c, thread, w⟩, mission, admitted⟩ := system
  cases mission with
  | between =>
    refine Or.inl ⟨⟨e, hthread⟩, hreleased, hprogress, hpending, ?_, ?_, hpaced.actions, ?_⟩
    · simpa [noted, missionMark?, marks, mark?] using hsignalled
    · simpa [noted, missionMark?, marks, mark?] using hresumed
    · rw [marks_append, List.count_append, List.count_eq_zero.2 hplace]
      rfl
  | choosing rest =>
    rw [show noted .mission _ = [] from rfl, List.append_nil]
    cases rest with
    | nil => exact hplace.1.elim
    | cons action rest =>
      rw [perform, missionStep_choosing]
      have hready : BeforeRelease (marks notes)
          (if action.ready c = true then MissionPlace.acting action rest else .choosing rest) := by
        cases action with
        | start =>
          have hnot : c.startCondition = false := by
            rw [ExperimentController.startCondition, show c.inProgress = true from hprogress, Bool.not_true,
              Bool.and_false]
          rw [PassAction.ready, hnot, if_neg Bool.false_ne_true]
          exact hplace
        | kick =>
          have hholds : c.kickCondition = true := by
            rw [ExperimentController.kickCondition, show c.inProgress = true from hprogress,
              show c.pendingStart = false from hpending]
            rfl
          rw [PassAction.ready, if_pos hholds]
          exact hplace
        | other name change => exact hplace
      exact Or.inl ⟨⟨e, hthread⟩, hreleased, hprogress, hpending, hsignalled, hresumed, hready⟩
  | acting action rest =>
    cases action with
    | start => exact hplace.elim
    | kick =>
      have hstop : c.mustStop = false := by
        rw [ExperimentController.released_eq, Bool.or_eq_false_iff] at hreleased
        exact hreleased.2
      have hmarks : marks (notes ++ [.mark .signalled]) = marks notes ++ [.signalled] := marks_append _ _
      refine Or.inr ⟨hstop, ?_, ?_, Or.inl ⟨?_, ⟨e, hthread⟩, rfl⟩, hplace.1, rfl⟩
      · exact (congrArg (List.count _) hmarks).trans (by rw [List.count_append, hplace.2]; rfl)
      · exact (congrArg (List.count _) hmarks).trans (by rw [List.count_append, List.count_eq_zero.2 hsignalled]; rfl)
      · exact (congrArg (List.count _) hmarks).trans (by rw [List.count_append, List.count_eq_zero.2 hresumed]; rfl)
    | other name change =>
      rw [show noted .mission _ = [] from rfl, List.append_nil]
      exact Or.inl ⟨⟨e, hthread⟩, hreleased, hprogress, hpending, hsignalled, hresumed, hplace⟩
  | releasing => exact hplace.elim

end Unreached

private theorem mustStop_threadStep {lab : Laboratory σ} {host next : ExperimentHost σ}
    {notes : List (ExperimentNote σ)}
    (hstep : ThreadStep lab host notes next) (habort : .abort ∉ marks notes) (hshut : .shutdown ∉ marks notes)
    (h : host.controller.mustStop = false) : next.controller.mustStop = false := by
  cases hstep with
  | prepare | cut =>
    rw [ExperimentController.mustStop, Bool.or_eq_false_iff] at h
    exact h.2
  | @iterate c w e result asked w' => exact ((Beside.foldl_apply (σ := σ) c asked).mustStop_eq habort hshut).trans h
  | @close c w result => cases result <;> exact h
  | _ => exact h

theorem Resuming.threadStep {lab : Laboratory σ} {host next : ExperimentHost σ} {notes : List (ExperimentNote σ)}
    {resumed : Nat} (h : Resuming resumed host) (hstop : host.controller.mustStop = false)
    (hstep : ThreadStep lab host notes next) : Resuming (resumed + (marks notes).count .resumed) next := by
  rcases h with ⟨rfl, ⟨e, hthread⟩, _⟩ | ⟨rfl, ⟨e, hthread⟩ | hflag⟩
  · obtain ⟨_, rfl, hnext⟩ := hstep.of_pausing hthread
    exact Or.inr ⟨rfl, Or.inl ⟨e, hnext⟩⟩
  · cases hstep with
    | clear => exact Or.inr ⟨rfl, Or.inr rfl⟩
    | _ => cases hthread
  · have hsignalled : .signalled ∉ marks notes := fun hmem => nomatch hstep.offPass.marks _ hmem
    cases hstep with
    | @resume c w e hreleased =>
      rw [ExperimentController.released_eq, hflag, hstop] at hreleased
      cases hreleased
    | @iterate c w e result asked w' =>
      have hasked := Beside.foldl_apply (σ := σ) c asked
      have hresumed : (marks (.call (.iteration e result) ::
          (asked.filterMap ExperimentController.Call.mark?).map .mark)).count .resumed = 0 :=
        List.count_eq_zero.2 hasked.resumed
      rw [hresumed]
      exact Or.inr ⟨rfl, Or.inr ((hasked.started_eq hsignalled).trans hflag)⟩
    | prepare | clear => exact Or.inr ⟨rfl, Or.inr rfl⟩
    | @close c w result => cases result <;> exact Or.inr ⟨rfl, Or.inr hflag⟩
    | _ => exact Or.inr ⟨rfl, Or.inr hflag⟩

private theorem Resuming.le_one {resumed : Nat} {host : ExperimentHost σ} (h : Resuming resumed host) :
    resumed ≤ 1 := by
  rcases h with ⟨rfl, _⟩ | ⟨rfl, _⟩ <;> decide

private theorem Resuming.eq_one_after_turn (site : ExperimentSite σ) {resumed : Nat} {system : ExperimentSystem σ}
    (h : Resuming resumed system.host) (hstop : system.host.controller.mustStop = false) :
    resumed + (marks (system.noted .thread)).count .resumed = 1 := by
  rcases threadTurn_cases site system with hstep | ⟨hnone, hnotes, _⟩
  · have hle := (h.threadStep hstop hstep).le_one
    rcases h with ⟨rfl, ⟨e, hthread⟩, _⟩ | ⟨rfl, _⟩
    · rw [(hstep.of_pausing hthread).2.1]
      rfl
    · omega
  · rw [hnotes]
    rcases h with ⟨_, ⟨e, hthread⟩, hflag⟩ | ⟨rfl, _⟩
    · rcases ExperimentHost.blocked_cases hnone with hplace | hplace | ⟨hplace, _⟩ | ⟨_, _, hwaiting⟩
      · cases hthread.symm.trans hplace
      · cases hthread.symm.trans hplace
      · cases hthread.symm.trans hplace
      · rw [ExperimentController.released_eq, hflag] at hwaiting
        cases hwaiting
    · rfl

namespace Reached

variable {notes : List (ExperimentNote σ)} {system : ExperimentSystem σ}

theorem other (h : Reached notes system) {move : Move σ} (hmove : move.isMission = false)
    (habort : .abort ∉ marks (system.noted move)) (hshut : .shutdown ∉ marks (system.noted move)) :
    Reached (notes ++ system.noted move) (system.perform site move) := by
  obtain ⟨hmission, hoff⟩ := offPass_perform site hmove system
  have hsignalled : .signalled ∉ marks (system.noted move) := fun hmem => nomatch hoff.marks _ hmem
  have hbegan : .began ∉ marks (system.noted move) := fun hmem => nomatch hoff.marks _ hmem
  have hthread : (system.perform site move).host.controller.mustStop = false ∧
      Resuming ((marks notes).count .resumed + (marks (system.noted move)).count .resumed)
        (system.perform site move).host := by
    rcases turn_cases site move system with hstep | ⟨hsame, hbeside⟩
    · exact ⟨mustStop_threadStep hstep habort hshut h.mustStop, h.resumed.threadStep h.mustStop hstep⟩
    · refine ⟨(hbeside.mustStop_eq habort hshut).trans h.mustStop, ?_⟩
      rw [List.count_eq_zero.2 hbeside.resumed, Nat.add_zero, Resuming, hsame, hbeside.started_eq hsignalled]
      exact h.resumed
  refine ⟨hthread.1, ?_, ?_, ?_, ?_⟩
  · rw [marks_append, List.count_append, h.began, List.count_eq_zero.2 hbegan]
  · rw [marks_append, List.count_append, h.signalled, List.count_eq_zero.2 hsignalled]
  · rw [marks_append, List.count_append]
    exact hthread.2
  · rw [hmission]
    exact h.place.of_kicked hoff.kicked

/-- Nothing more comes of the pass. -/
theorem missionStep (h : Reached notes system) (hpaced : site.Paced)
    (hbegan : (marks (notes ++ system.noted .mission)).count .began ≤ 1) :
    Reached (notes ++ system.noted .mission) (system.perform site .mission) := by
  obtain ⟨hstop, hcount, hsignalled, hresumed, hplace⟩ := h
  obtain ⟨⟨c, thread, w⟩, mission, admitted⟩ := system
  cases mission with
  | between =>
    rw [marks_append, List.count_append, hcount] at hbegan
    exact absurd hbegan (Nat.not_succ_le_self 1)
  | choosing rest =>
    rw [show noted .mission _ = [] from rfl, List.append_nil]
    cases rest with
    | nil =>
      have hreleases : c.releases = false := by
        rw [ExperimentController.releases, show c.kicked = true from hplace.2]
        rfl
      rw [perform, ExperimentSystem.missionStep, if_pos hpaced.observing, hreleases, if_neg Bool.false_ne_true]
      exact ⟨hstop, hcount, hsignalled, hresumed, trivial⟩
    | cons action rest =>
      cases action with
      | start | kick => exact hplace.1.elim
      | other name change => exact ⟨hstop, hcount, hsignalled, hresumed, hplace⟩
  | acting action rest =>
    cases action with
    | start | kick => exact hplace.elim
    | other name change =>
      rw [show noted .mission _ = [] from rfl, List.append_nil]
      exact ⟨hstop, hcount, hsignalled, hresumed, hplace⟩
  | releasing => exact hplace.elim

end Reached

/-- A pass that finds the thread waiting lets it go on exactly once, and the thread does so exactly once. -/
private theorem reached_after (hpaced : site.Paced) {system : ExperimentSystem σ} (hstart : Unreached [] system)
    (later : List (Move σ)) (hquiet : Undisturbed (marks (system.history site later))) :
    Unreached (system.history site later) (system.after site later) ∨
      Reached (system.history site later) (system.after site later) := by
  refine invariant_mission site (P := fun notes system => Undisturbed (marks notes) →
    Unreached notes system ∨ Reached notes system) ?_ ?_ (fun _ => Or.inl hstart) later hquiet
  · intro notes system h hundisturbed
    obtain ⟨hbefore, _, _⟩ := (marks_append notes _ ▸ hundisturbed).of_append
    rcases h hbefore with hunreached | hreached
    · exact hunreached.missionStep hpaced
    · exact Or.inr (hreached.missionStep hpaced hundisturbed.began)
  · intro notes move system h hmove hundisturbed
    obtain ⟨hbefore, habort, hshut⟩ := (marks_append notes _ ▸ hundisturbed).of_append
    rcases h hbefore with hunreached | hreached
    · exact Or.inl (hunreached.other hmove habort hshut)
    · exact Or.inr (hreached.other hmove habort hshut)

/-- Whatever the order of turns, if a pass hands requests over before it lets a waiting experiment go on: a pass does
the latter at most once, and not at all if it handed a request over; an experiment goes on after a wait at most as
often as passes let it; and an undisturbed pass that begins while the thread waits lets it go on exactly once, and the
thread does so exactly once, with its next turn at the latest.  -/
theorem waits_are_paced (hpaced : site.Paced) (world : σ) (schedule : List (Move σ)) :
    let system := (initial world).after site schedule
    let notes := (initial world).history site schedule
    (∀ pass, pass <:+: marks notes → .began ∉ pass →
        pass.count .signalled ≤ 1 ∧ ∀ code, .handed code ∈ pass → .signalled ∉ pass) ∧
      resumptions (calls (thisRun notes)) ≤ signallingPasses (marks (thisRun notes)) ∧
      ∀ e later, system.mission = .between → system.host.thread = .pausing e → system.host.controller.released = false →
        let more := marks (system.history site later)
        more.count .began = 1 → (system.after site later).mission = .between → .abort ∉ more → .shutdown ∉ more →
          more.count .signalled = 1 ∧ more.count .resumed ≤ 1 ∧
            (marks (system.history site (later ++ [.thread]))).count .resumed = 1 := by
  intro system notes
  have hpassing : Passing notes system := passing hpaced world schedule
  refine ⟨hpassing.1, ?_, ?_⟩
  · have hbalance := (balanced site world schedule).balance
    -- the passes since the run was prepared are as sound as all passes
    have hrun : marks (thisRun notes) <:+: marks notes := by
      obtain ⟨before, hbefore⟩ := List.rtakeWhile_suffix continues notes
      exact ⟨marks before, [], by rw [List.append_nil, ← marks_append, thisRun, hbefore]⟩
    have hcount := count_signalled_le (hpassing.1.part hrun)
    exact (Nat.le_add_right _ _).trans (hbalance.trans hcount)
  · intro e later hbetween hthread hreleased more hone hafter habort hshut
    have hprogress : system.host.controller.inProgress = true :=
      (inProgress_eq_isMarked site world schedule).trans (congrArg ExperimentThread.isMarked hthread)
    have hpending : system.host.controller.pendingStart = false := by
      have hstate := hpassing.2
      rw [hbetween] at hstate
      exact hstate.2
    have hstart : Unreached [] system :=
      ⟨⟨e, hthread⟩, hreleased, hprogress, hpending, List.not_mem_nil, List.not_mem_nil, hbetween ▸ List.not_mem_nil⟩
    rcases reached_after hpaced hstart later ⟨habort, hshut, hone.le⟩ with hunreached | hreached
    · have hplace := hunreached.place
      rw [hafter] at hplace
      exact absurd ((List.count_eq_zero.2 hplace).symm.trans hone) (by decide)
    · refine ⟨hreached.signalled, hreached.resumed.le_one, ?_⟩
      rw [history_concat, marks_append, List.count_append]
      exact hreached.resumed.eq_one_after_turn site hreached.mustStop

theorem waits_are_paced_in_second_pass :
    let system := (initial ()).after patientSite (untilFirstWait ++ List.replicate 2 .mission)
    let pass : List (Move Unit) := List.replicate 5 .mission
    (marks (system.history patientSite pass)).count .signalled = 1 ∧
      (marks (system.history patientSite (pass ++ [.thread]))).count .resumed = 1 := by
  intro system pass
  have hpaced : patientSite.Paced := ⟨trivial, rfl⟩
  obtain ⟨_, _, hpass⟩ := waits_are_paced hpaced () (untilFirstWait ++ List.replicate 2 .mission)
  obtain ⟨hsignalled, _, hresumed⟩ := hpass patient pass rfl rfl rfl rfl rfl (by decide) (by decide)
  exact ⟨hsignalled, hresumed⟩

end ExperimentSystem

end Spacecraft
