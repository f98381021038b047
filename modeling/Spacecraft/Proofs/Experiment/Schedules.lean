import Spacecraft.Experiment.Fibonacci
import Spacecraft.Experiment.Scripted
import Spacecraft.Proofs.Experiment.Operations

/-!
# Schedules make no difference

Before a pass has given the thread something to do, the thread rests; from then on the pass changes nothing but what it
notes down for itself (`Stage`).  An experiment that sees nothing of that (`Experiment.Discreet`) goes the same way
before and after (`settle_closePass`), so every turn of the thread may as well come when the pass is over
(`after_pass`).
-/

namespace Spacecraft

open ExperimentNote

/-! ### What an experiment sees of a pass -/

/-- The experiment sees nothing of what a pass notes down for itself: those two flags are for the mission thread alone,
and an experiment learns no more of the controller than what it publishes.  -/
def Experiment.Discreet {σ : Type} (e : Experiment σ) : Prop :=
  ∀ (c : ExperimentController) (w : σ), e.start c.closePass w = e.start c w ∧ e.iterate c.closePass w = e.iterate c w

private theorem Fibonacci.discreet_experiment {σ ω : Type} [FileStore σ] (get : ω → Fibonacci × σ)
    (put : Fibonacci × σ → ω → ω) :
    (experiment get put).Discreet := fun _ _ => ⟨rfl, rfl⟩

private theorem ScriptedWorld.discreet_experiment {ω : Type} (get : ω → ScriptedWorld) (put : ScriptedWorld → ω → ω)
    (slot : Nat) (code : UInt8) (start : StartResult) : (experiment get put slot code start).Discreet := by
  refine fun c w => ⟨rfl, ?_⟩
  have hanswer (asked : UInt8) : (c.closePass.request asked).1 = (c.request asked).1 := by
    rw [ExperimentController.request_eq, ExperimentController.request_eq,
      show c.closePass.inProgress = c.inProgress from rfl]
    split <;> rfl
  simp only [experiment, hanswer]

namespace ExperimentController

private theorem apply_closePass (c : ExperimentController) (call : Call) :
    c.closePass.apply call = (c.apply call).closePass := by
  cases call with
  | abort | shutdown => rfl
  | request code =>
    show (c.closePass.request code).2 = (c.request code).2.closePass
    rw [request_eq, request_eq, show c.closePass.inProgress = c.inProgress from rfl]
    split <;> rfl

private theorem foldl_apply_closePass (calls : List Call) (c : ExperimentController) :
    calls.foldl .apply c.closePass = (calls.foldl .apply c).closePass := by
  induction calls generalizing c with
  | nil => rfl
  | cons call calls ih => rw [List.foldl_cons, List.foldl_cons, apply_closePass, ih]

end ExperimentController

namespace ExperimentHost

variable {σ : Type} {lab : Laboratory σ}

/-- The experiment that the thread holds sees nothing of what a pass notes down for itself. -/
def HoldsDiscreet (host : ExperimentHost σ) : Prop := ∀ e, host.thread.held? = some e → e.Discreet

theorem HoldsDiscreet.threadStep (hlab : ∀ e ∈ lab.experiments, e.Discreet) {host next : ExperimentHost σ}
    {notes : List (ExperimentNote σ)} (h : host.HoldsDiscreet) (hstep : ThreadStep lab host notes next) :
    next.HoldsDiscreet := by
  intro e he
  cases hstep with
  | find _ hfind =>
    obtain rfl := Option.some.inj he
    exact hlab _ (List.mem_of_find?_eq_some hfind)
  | receive | hangUp | drop | skip | refuse | stop | close | release | finish | record => cases he
  | _ => exact h e he

theorem HoldsDiscreet.settle (hlab : ∀ e ∈ lab.experiments, e.Discreet) {host : ExperimentHost σ}
    (h : host.HoldsDiscreet) (n : Nat) : (host.settle lab n).HoldsDiscreet := by
  induction n generalizing host with
  | zero => exact h
  | succ n ih =>
    rw [ExperimentHost.settle]
    cases hnext : host.step lab with
    | none => exact h
    | some next => exact ih (h.threadStep hlab (.of_step hnext))

/-- What a pass notes down for itself makes no difference to a step of the thread. -/
private theorem HoldsDiscreet.step_closePass {host : ExperimentHost σ} (h : host.HoldsDiscreet) :
    (host.control .closePass).step lab = (host.step lab).map (ExperimentHost.control .closePass) := by
  obtain ⟨c, thread, w⟩ := host
  cases thread with
  | receiving =>
    simp only [ExperimentHost.step, control, show c.closePass.queue = c.queue from rfl]
    cases c.queue.peek <;> rfl
  | received code =>
    simp only [ExperimentHost.step, control, show c.closePass.events = c.events from rfl]
    split
    · rfl
    · cases lab.find? code <;> rfl
  | starting e =>
    simp only [ExperimentHost.step, control, (h e rfl c w).1]
    rfl
  | iterating e =>
    simp only [ExperimentHost.step, control, (h e rfl c w).2, ExperimentController.foldl_apply_closePass]
    rfl
  | closing result => cases result <;> rfl
  | pausing e =>
    simp only [ExperimentHost.step, control, show c.closePass.released = c.released from rfl]
    split <;> rfl
  | _ => rfl

private theorem HoldsDiscreet.notes_closePass {host : ExperimentHost σ} (h : host.HoldsDiscreet) :
    (host.control .closePass).notes = host.notes := by
  obtain ⟨c, thread, w⟩ := host
  cases thread with
  | starting e => simp only [notes, control, (h e rfl c w).1]
  | iterating e => simp only [notes, control, (h e rfl c w).2]
  | _ => rfl

theorem settle_closePass (hlab : ∀ e ∈ lab.experiments, e.Discreet) {host : ExperimentHost σ} (h : host.HoldsDiscreet)
    (n : Nat) : (host.control .closePass).settle lab n = (host.settle lab n).control .closePass := by
  induction n generalizing host with
  | zero => rfl
  | succ n ih =>
    rw [ExperimentHost.settle, ExperimentHost.settle, h.step_closePass]
    cases hnext : host.step lab with
    | none => rfl
    | some next => exact ih (h.threadStep hlab (.of_step hnext))

end ExperimentHost

namespace ExperimentSystem

variable {σ : Type} {site : ExperimentSite σ}

/-! ### Turns of the thread alone -/

/-- What is noted of turns of the thread alone is the same before and after the pass notes something down for itself,
and wherever the mission thread stands.  -/
private theorem history_threads (hlab : ∀ e ∈ site.laboratory.experiments, e.Discreet) {host : ExperimentHost σ}
    (h : host.HoldsDiscreet) (mission later : MissionPlace σ) (admitted : List UInt8) (n : Nat) :
    (ExperimentSystem.mk host later admitted).history site (List.replicate n .thread) =
        (ExperimentSystem.mk host mission admitted).history site (List.replicate n .thread) ∧
      (ExperimentSystem.mk (host.control .closePass) later admitted).history site (List.replicate n .thread) =
        (ExperimentSystem.mk host mission admitted).history site (List.replicate n .thread) := by
  induction n with
  | zero => exact ⟨rfl, rfl⟩
  | succ n ih =>
    rw [List.replicate_succ', history_concat, history_concat, history_concat, ih.1, ih.2, after_threads, after_threads,
      after_threads, ExperimentHost.settle_closePass hlab h]
    exact ⟨rfl, congrArg _ (h.settle hlab n).notes_closePass⟩

private theorem mission_after_threads (system : ExperimentSystem σ) (n : Nat) :
    (system.after site (List.replicate n .thread)).mission = system.mission := by
  obtain ⟨host, mission, admitted⟩ := system
  rw [after_threads]

private theorem flags_after_threads (site : ExperimentSite σ) (system : ExperimentSystem σ) (n : Nat) :
    (system.after site (List.replicate n .thread)).host.controller.kicked = system.host.controller.kicked ∧
      (system.after site (List.replicate n .thread)).host.controller.pendingStart =
        system.host.controller.pendingStart := by
  induction n with
  | zero => exact ⟨rfl, rfl⟩
  | succ n ih =>
    obtain ⟨-, hoff⟩ := @offPass_perform _ site .thread rfl (system.after site (List.replicate n .thread))
    rw [List.replicate_succ', after_concat]
    exact ⟨hoff.kicked.trans ih.1, hoff.pendingStart.trans ih.2⟩

/-- However many turns bring the thread to rest, it rests in the same state after the same calls. -/
private theorem Resting.unique {system : ExperimentSystem σ} {m n : Nat}
    (hm : (system.after site (List.replicate m .thread)).Resting site)
    (hn : (system.after site (List.replicate n .thread)).Resting site) :
    system.after site (List.replicate m .thread) = system.after site (List.replicate n .thread) ∧
      system.history site (List.replicate m .thread) = system.history site (List.replicate n .thread) := by
  wlog hle : m ≤ n with hother
  · obtain ⟨hafter, hhistory⟩ := hother hn hm (Nat.le_of_not_le hle)
    exact ⟨hafter.symm, hhistory.symm⟩
  obtain ⟨k, rfl⟩ := Nat.exists_eq_add_of_le hle
  rw [List.replicate_add, after_append, history_append, hm.after_thread, hm.history_thread, List.append_nil]
  exact ⟨rfl, rfl⟩

/-! ### Stages of a pass -/

/-- The pass has not given the thread anything to do yet. -/
def OnWay : MissionPlace σ → Prop
  | .between | .acting (.other _ _) _ => False
  | .choosing rest => rest = [.start, .kick] ∨ rest = [.kick] ∨ rest = []
  | .acting .start rest => rest = [.kick]
  | .acting .kick rest => rest = []
  | .releasing => True

/-- The pass has given the thread something to do, or is over. -/
def SetOff (c : ExperimentController) : MissionPlace σ → Prop
  | .between => True
  | .choosing rest => (rest = [.kick] ∧ c.pendingStart = true) ∨ (rest = [] ∧ (c.kicked = true ∨ c.pendingStart = true))
  | .acting _ _ | .releasing => False

/-- Where a pass stands: the thread rests, or has something to do that the rest of the pass does not look at. -/
def Stage (site : ExperimentSite σ) (system : ExperimentSystem σ) : Prop :=
  (system.Resting site ∧ OnWay system.mission) ∨ SetOff system.host.controller system.mission

/-- What is left of a pass that has given the thread something to do: it does not look at the thread any more. -/
private theorem SetOff.missionStep_cases (hobserving : site.observing = true) {system : ExperimentSystem σ}
    (h : SetOff system.host.controller system.mission) (hplace : system.mission ≠ .between) :
    (system.mission = .choosing [.kick] ∧ system.missionStep site = ⟨system.host, .choosing [], system.admitted⟩ ∧
        SetOff (σ := σ) system.host.controller (.choosing [])) ∨
      (system.mission = .choosing [] ∧
        system.missionStep site = ⟨system.host.control .closePass, .between, system.admitted⟩) := by
  obtain ⟨⟨c, thread, w⟩, mission, admitted⟩ := system
  cases mission with
  | between => exact absurd rfl hplace
  | acting action rest => exact h.elim
  | releasing => exact h.elim
  | choosing rest =>
    rcases h with ⟨rfl, hpending⟩ | ⟨rfl, hflags⟩
    · have hpending : c.pendingStart = true := hpending
      refine Or.inl ⟨rfl, ?_, Or.inr ⟨rfl, Or.inr hpending⟩⟩
      rw [missionStep_choosing, PassAction.ready, ExperimentController.kickCondition, hpending, Bool.not_true,
        Bool.and_false, if_neg Bool.false_ne_true]
    · have hreleases : c.releases = false := by
        rcases hflags with hkicked | hpending
        · rw [ExperimentController.releases, show c.kicked = true from hkicked]
          rfl
        · rw [ExperimentController.releases, show c.pendingStart = true from hpending, Bool.not_true, Bool.and_false,
            Bool.false_and]
      refine Or.inr ⟨rfl, ?_⟩
      simp only [missionStep, hobserving, if_true, hreleases, Bool.false_eq_true, if_false]
      rfl

private theorem setOff_after_threads (site : ExperimentSite σ) {system : ExperimentSystem σ}
    (h : SetOff system.host.controller system.mission) (n : Nat) :
    SetOff (system.after site (List.replicate n .thread)).host.controller system.mission := by
  obtain ⟨hkicked, hpending⟩ := flags_after_threads site system n
  cases hmission : system.mission with
  | between => trivial
  | acting action rest | releasing =>
    rw [hmission] at h
    exact h.elim
  | choosing rest =>
    rw [hmission] at h
    rw [SetOff, hkicked, hpending]
    exact h

/-- Until the pass gives the thread something to do, the thread rests after every step of the pass. -/
private theorem Stage.missionStep_onWay (hobserving : site.observing = true) {system : ExperimentSystem σ}
    (hrest : system.Resting site) (h : OnWay system.mission) : Stage site (system.missionStep site) := by
  obtain ⟨⟨c, thread, w⟩, mission, admitted⟩ := system
  cases mission with
  | between => exact h.elim
  | choosing rest =>
    rcases h with rfl | rfl | rfl
    · rw [missionStep_choosing]
      refine Or.inl ⟨hrest, ?_⟩
      split
      · exact rfl
      · exact Or.inr (Or.inl rfl)
    · rw [missionStep_choosing]
      refine Or.inl ⟨hrest, ?_⟩
      split
      · exact rfl
      · exact Or.inr (Or.inr rfl)
    · simp only [missionStep, hobserving, if_true]
      split
      · exact Or.inl ⟨hrest.of_host rfl rfl rfl, trivial⟩
      · exact Or.inr trivial
  | acting action rest =>
    cases action with
    | start =>
      obtain rfl : rest = [.kick] := h
      show Stage site ⟨⟨c.start, thread, w⟩, .choosing [.kick], admitted⟩
      rw [ExperimentController.start]
      cases hrequested : c.info.requested with
      | none => exact Or.inl ⟨hrest, Or.inr (Or.inl rfl)⟩
      | some code => exact Or.inr (Or.inl ⟨rfl, rfl⟩)
    | kick =>
      obtain rfl : rest = [] := h
      exact Or.inr (Or.inr ⟨rfl, Or.inl rfl⟩)
    | other name change => exact h.elim
  | releasing => exact Or.inr trivial

private theorem Stage.missionStep_setOff (hobserving : site.observing = true) {system : ExperimentSystem σ}
    (h : SetOff system.host.controller system.mission) (hplace : system.mission ≠ .between) :
    Stage site (system.missionStep site) := by
  rcases SetOff.missionStep_cases hobserving h hplace with ⟨-, hstep, hnext⟩ | ⟨-, hstep⟩
  · rw [hstep]
    exact Or.inr hnext
  · rw [hstep]
    exact Or.inr trivial

/-- What is left of a pass that has given the thread something to do may come before the turns that the thread has had
since.  -/
private theorem SetOff.missionStep_after_threads (hobserving : site.observing = true)
    (hlab : ∀ e ∈ site.laboratory.experiments, e.Discreet) {system : ExperimentSystem σ}
    (h : SetOff system.host.controller system.mission) (hplace : system.mission ≠ .between)
    (hdiscreet : system.host.HoldsDiscreet) (n : Nat) :
    (system.after site (List.replicate n .thread)).missionStep site =
        (system.missionStep site).after site (List.replicate n .thread) ∧
      (system.missionStep site).history site (List.replicate n .thread) =
        system.history site (List.replicate n .thread) := by
  obtain ⟨host, mission, admitted⟩ := system
  have hlater := setOff_after_threads site h n
  rw [after_threads] at hlater ⊢
  have hsettled : SetOff (ExperimentSystem.mk (host.settle site.laboratory n) mission admitted).host.controller
      (ExperimentSystem.mk (host.settle site.laboratory n) mission admitted).mission := hlater
  rcases missionStep_cases hobserving h hplace with ⟨hmission, hstep, -⟩ | ⟨hmission, hstep⟩ <;>
    rcases missionStep_cases hobserving hsettled hplace with ⟨hmission', hstep', -⟩ | ⟨hmission', hstep'⟩
  · rw [hstep, hstep', after_threads]
    exact ⟨rfl, (history_threads hlab hdiscreet _ _ _ n).1⟩
  · cases hmission.symm.trans hmission'
  · cases hmission.symm.trans hmission'
  · rw [hstep, hstep', after_threads, ExperimentHost.settle_closePass hlab hdiscreet]
    exact ⟨rfl, (history_threads hlab hdiscreet _ _ _ n).2⟩

/-! ### The thread last -/

/-- Turns among which the thread has none make no calls and leave the thread where it is. -/
private theorem history_own {turns : List (Move σ)} (hown : ∀ move ∈ turns, move.isThread = false)
    (system : ExperimentSystem σ) :
    calls (system.history site turns) = [] ∧ (system.after site turns).host.thread = system.host.thread := by
  induction turns generalizing system with
  | nil => exact ⟨rfl, rfl⟩
  | cons move turns ih =>
    obtain ⟨hmove, hturns⟩ := List.forall_mem_cons.1 hown
    obtain ⟨hthread, hbeside⟩ := turn_beside site hmove system
    obtain ⟨hcalls, hsame⟩ := ih hturns (system.perform site move)
    rw [history, calls_append, hbeside.calls, hcalls]
    exact ⟨rfl, hsame.trans hthread⟩

/-- The same state is reached with the same calls by a pass that nobody interrupts, as far as it got, and turns of the
thread after it.  -/
def ThreadLast (site : ExperimentSite σ) (start : ExperimentSystem σ) (notes : List (ExperimentNote σ))
    (system : ExperimentSystem σ) : Prop :=
  ∃ j n, (marks (start.history site (List.replicate j .mission))).count .began = 1 ∧
    Stage site (start.after site (List.replicate j .mission)) ∧
    system = (start.after site (List.replicate j .mission)).after site (List.replicate n .thread) ∧
    calls notes = calls ((start.after site (List.replicate j .mission)).history site (List.replicate n .thread))

namespace ThreadLast

variable {start system : ExperimentSystem σ} {notes : List (ExperimentNote σ)}

theorem begin (hactions : site.actions = [.start, .kick]) (hrest : start.Resting site)
    (hbetween : start.mission = .between) :
    ThreadLast site start [.mark .began] { start with mission := .choosing site.actions } := by
  obtain ⟨host, mission, admitted⟩ := start
  cases hbetween
  exact ⟨1, 0, rfl, Or.inl ⟨hrest, Or.inl hactions⟩, rfl, rfl⟩

theorem thread (h : ThreadLast site start notes system) :
    ThreadLast site start (notes ++ system.noted .thread) (system.perform site .thread) := by
  obtain ⟨j, n, hbegan, hstage, rfl, hcalls⟩ := h
  refine ⟨j, n + 1, hbegan, hstage, ?_, ?_⟩
  · rw [List.replicate_succ', after_concat]
  · rw [List.replicate_succ', history_concat, calls_append, calls_append, hcalls]

theorem mission (hobserving : site.observing = true) (hlab : ∀ e ∈ site.laboratory.experiments, e.Discreet)
    (hdiscreet : start.host.HoldsDiscreet) (h : ThreadLast site start notes system)
    (hplace : system.mission ≠ .between) :
    ThreadLast site start (notes ++ system.noted .mission) (system.perform site .mission) := by
  obtain ⟨j, n, hbegan, hstage, rfl, hcalls⟩ := h
  set base := start.after site (List.replicate j .mission) with hbase
  rw [mission_after_threads] at hplace
  have hlater : start.after site (List.replicate (j + 1) .mission) = base.missionStep site := by
    rw [List.replicate_succ', after_concat, ← hbase, perform]
  have hmore : (marks (start.history site (List.replicate (j + 1) .mission))).count .began = 1 := by
    rw [List.replicate_succ', history_concat, marks_append, List.count_append, hbegan,
      List.count_eq_zero.2 (began_not_mem_noted hplace)]
  have hsilent := (@turn_beside _ site .mission rfl (base.after site (List.replicate n .thread))).2.calls
  rcases hstage with ⟨hrest, honway⟩ | hsetoff
  · -- the turns of the thread so far did nothing
    refine ⟨j + 1, 0, hmore, ?_, ?_, ?_⟩
    · rw [hlater]
      exact .missionStep_onWay hobserving hrest honway
    · rw [hlater, hrest.after_thread]
      rfl
    · rw [calls_append, hcalls, hsilent, hrest.history_thread]
      rfl
  · -- the step comes before the turns of the thread
    have hown : ∀ move ∈ List.replicate j (Move.mission (σ := σ)), move.isThread = false := fun move hmove => by
      rw [List.eq_of_mem_replicate hmove]
      rfl
    have hholds : base.host.HoldsDiscreet := fun e he => hdiscreet e ((history_own hown start).2 ▸ he)
    obtain ⟨hafter, hhistory⟩ := SetOff.missionStep_after_threads hobserving hlab hsetoff hplace hholds n
    refine ⟨j + 1, n, hmore, ?_, ?_, ?_⟩
    · rw [hlater]
      exact .missionStep_setOff hobserving hsetoff hplace
    · rw [hlater, ← hafter]
      rfl
    · rw [calls_append, hsilent, List.append_nil, hcalls, hlater, hhistory]

end ThreadLast

/-- A pass begins once, so only so many turns of the mission thread are one pass. -/
private theorem missions_unique {system : ExperimentSystem σ} {j k : Nat}
    (hj : (system.after site (List.replicate j .mission)).mission = .between)
    (hbegan : (marks (system.history site (List.replicate j .mission))).count .began = 1)
    (hk : (system.after site (List.replicate k .mission)).mission = .between)
    (hbegan' : (marks (system.history site (List.replicate k .mission))).count .began = 1) : j = k := by
  wlog hle : j ≤ k with hother
  · exact (hother hk hbegan' hj hbegan (Nat.le_of_not_le hle)).symm
  obtain ⟨more, rfl⟩ := Nat.exists_eq_add_of_le hle
  rw [List.replicate_add, history_append, marks_append, List.count_append, hbegan] at hbegan'
  cases more with
  | zero => rfl
  | succ more =>
    -- the next pass has begun
    have hagain : (system.after site (List.replicate j .mission)).noted .mission = [.mark .began] := by
      rw [noted, missionMark?, hj]
      rfl
    rw [List.replicate_succ, history, hagain, marks_append, List.count_append] at hbegan'
    have hone : (marks (σ := σ) [.mark .began]).count .began = 1 := rfl
    omega

private theorem CarryOut.unique {system : ExperimentSystem σ} {operation : ExperimentOperation}
    {moves turns : List (Move σ)}
    (h : system.CarryOut site moves operation) (hown : ∀ move ∈ moves, move.isThread = false)
    (h' : system.CarryOut site turns operation) (hown' : ∀ move ∈ turns, move.isThread = false) : moves = turns := by
  have hfilter {turns : List (Move σ)} (hown : ∀ move ∈ turns, move.isThread = false) : ownTurns turns = turns :=
    List.filter_eq_self.2 fun move hmove => by rw [hown move hmove, Bool.not_false]
  cases operation with
  | request code | abort =>
    rw [CarryOut, hfilter hown] at h
    rw [CarryOut, hfilter hown'] at h'
    rw [h, h']
  | pass =>
    have hmissions {turns : List (Move σ)} (hown : ∀ move ∈ turns, move.isThread = false)
        (hturns : ∀ move ∈ turns, move.isThread = true ∨ move.isMission = true) :
        turns = List.replicate turns.length .mission := by
      refine List.eq_replicate_iff.2 ⟨rfl, fun move hmove => ?_⟩
      have hmission := (hturns move hmove).resolve_left (by rw [hown move hmove]; exact Bool.false_ne_true)
      cases move <;> first | rfl | cases hmission
    obtain ⟨hturns, hbetween, hbegan⟩ := h
    obtain ⟨hturns', hbetween', hbegan'⟩ := h'
    rw [hmissions hown hturns] at hbetween hbegan
    rw [hmissions hown' hturns'] at hbetween' hbegan'
    rw [hmissions hown hturns, hmissions hown' hturns', missions_unique hbetween hbegan hbetween' hbegan']

/-- Whatever turns the thread takes while an operation is carried out: it may as well take them when the operation has
been carried out.  -/
private theorem CarryOut.thread_last (hsite : site.Standard) (hlab : ∀ e ∈ site.laboratory.experiments, e.Discreet)
    {system : ExperimentSystem σ} (hrest : system.Resting site) (hbetween : system.mission = .between)
    (hadmitted : system.admitted = []) (hdiscreet : system.host.HoldsDiscreet) {operation : ExperimentOperation}
    {turns : List (Move σ)} (h : system.CarryOut site turns operation) :
    ∃ moves n, (∀ move ∈ moves, move.isThread = false) ∧ system.CarryOut site moves operation ∧
      system.after site turns = (system.after site moves).after site (List.replicate n .thread) ∧
      calls (system.history site turns) =
        calls ((system.after site moves).history site (List.replicate n .thread)) := by
  cases operation with
  | request code =>
    have hmoves : system.CarryOut site [.ask code, .file code] (.request code) := rfl
    refine ⟨[.ask code, .file code], 0, by simp [Move.isThread], hmoves, ?_, ?_⟩
    · rw [(after_request site hrest hadmitted h).1, (after_request site hrest hadmitted hmoves).1]
      rfl
    · rw [(after_request site hrest hadmitted h).2]
      rfl
  | abort =>
    obtain ⟨n, hafter, hhistory⟩ := after_abort site hrest h
    refine ⟨[.abort], n, by simp [Move.isThread], rfl, hafter, ?_⟩
    rw [hhistory]
    rfl
  | pass =>
    have hlast := pass_invariant site (P := ThreadLast site system) hrest hbetween
      (ThreadLast.begin hsite.actions hrest hbetween)
      (fun _ _ hlast hplace => hlast.mission hsite.observing hlab hdiscreet hplace) (fun _ _ hlast => hlast.thread) h
    obtain ⟨j, n, hbegan, -, hafter, hcalls⟩ := hlast
    have hmissions : ∀ move ∈ List.replicate j (Move.mission (σ := σ)), move.isThread = false ∧ move.isMission = true :=
      fun move hmove => by
        rw [List.eq_of_mem_replicate hmove]
        exact ⟨rfl, rfl⟩
    have hover := h.2.1
    rw [hafter, mission_after_threads] at hover
    exact ⟨List.replicate j .mission, n, fun move hmove => (hmissions move hmove).1,
      ⟨fun move hmove => Or.inr (hmissions move hmove).2, hover, hbegan⟩, hafter, hcalls⟩

/-- Two ways to carry an operation out that both leave the thread at rest. -/
private theorem CarryOut.agree (hsite : site.Standard) (hlab : ∀ e ∈ site.laboratory.experiments, e.Discreet)
    {system : ExperimentSystem σ} (hrest : system.Resting site) (hbetween : system.mission = .between)
    (hadmitted : system.admitted = []) (hdiscreet : system.host.HoldsDiscreet) {operation : ExperimentOperation}
    {turns turns' : List (Move σ)} (h : system.CarryOut site turns operation)
    (h' : system.CarryOut site turns' operation) (hafter : (system.after site turns).Resting site)
    (hafter' : (system.after site turns').Resting site) :
    system.after site turns = system.after site turns' ∧
      calls (system.history site turns) = calls (system.history site turns') := by
  obtain ⟨moves, m, hown, hmoves, hsame, hcalls⟩ := h.thread_last hsite hlab hrest hbetween hadmitted hdiscreet
  obtain ⟨moves', n, hown', hmoves', hsame', hcalls'⟩ := h'.thread_last hsite hlab hrest hbetween hadmitted hdiscreet
  obtain rfl := hmoves.unique hown hmoves' hown'
  rw [hsame] at hafter
  rw [hsame'] at hafter'
  obtain ⟨hrested, hnoted⟩ := hafter.unique hafter'
  rw [hsame, hsame', hcalls, hcalls', hrested, hnoted]
  exact ⟨rfl, rfl⟩

/-! ### Operations one after another -/

private theorem holdsDiscreet_after (hlab : ∀ e ∈ site.laboratory.experiments, e.Discreet) (world : σ)
    (schedule : List (Move σ)) : ((initial world).after site schedule).host.HoldsDiscreet := by
  refine invariant site (P := fun _ host => host.HoldsDiscreet) ?_ ?_ [] (fun e he => by cases he) schedule
  · intro _ _ _ _ hholds hstep
    exact hholds.threadStep hlab hstep
  · intro _ _ _ _ hholds hsame _ e he
    exact hholds e (hsame ▸ he)

private theorem Trial.agree (hsite : site.Standard) (hlab : ∀ e ∈ site.laboratory.experiments, e.Discreet) (world : σ)
    {deeds deeds' : List ExperimentDeed} {schedule schedule' : List (Move σ)}
    (trial : Trial site (initial world) deeds schedule) (trial' : Trial site (initial world) deeds' schedule')
    (hsame : deeds'.map ExperimentDeed.operation = deeds.map ExperimentDeed.operation) :
    deeds' = deeds ∧ calls ((initial world).history site schedule') = calls ((initial world).history site schedule) ∧
      (initial world).after site schedule' = (initial world).after site schedule := by
  induction trial generalizing deeds' schedule' with
  | start =>
    cases trial' with
    | start => exact ⟨rfl, rfl, rfl⟩
    | next => cases hsame
  | @next deeds before turns operation trial hturns hafter ih =>
    cases trial' with
    | start => cases hsame
    | @next deeds' before' turns' operation' trial' hturns' hafter' =>
      rw [List.map_cons, List.map_cons, ExperimentOperation.operation_deed, ExperimentOperation.operation_deed,
        List.cons.injEq] at hsame
      obtain ⟨rfl, hdeeds⟩ := hsame
      obtain ⟨rfl, hcalls, hstate⟩ := ih trial' hdeeds
      obtain ⟨hrest, hbetween, hadmitted⟩ := trial.resting site (resting_initial site world) rfl rfl
      rw [hstate] at hturns' ⊢
      rw [after_append] at hafter hafter'
      rw [hstate] at hafter'
      obtain ⟨hagree, hheard⟩ := hturns'.agree hsite hlab hrest hbetween hadmitted
        (holdsDiscreet_after hlab world before) hturns hafter' hafter
      rw [after_append, after_append, history_append, history_append, calls_append, calls_append, hstate, hcalls,
        hagree, hheard]
      exact ⟨rfl, rfl, rfl⟩

/-- Turns of the thread before and after the end of an operation add up. -/
private theorem CarryOut.settles (hsite : site.Standard) (hlab : ∀ e ∈ site.laboratory.experiments, e.Discreet)
    {system : ExperimentSystem σ} (hrest : system.Resting site) (hbetween : system.mission = .between)
    (hadmitted : system.admitted = []) (hdiscreet : system.host.HoldsDiscreet) {operation : ExperimentOperation}
    {turns : List (Move σ)} (h : system.CarryOut site turns operation) :
    ∃ moves, (∀ move ∈ moves, move.isThread = false) ∧ system.CarryOut site moves operation ∧
      ∀ n, (system.after site (moves ++ List.replicate n .thread)).Resting site →
        system.after site (turns ++ List.replicate n .thread) = system.after site (moves ++ List.replicate n .thread) ∧
          calls (system.history site (turns ++ List.replicate n .thread)) =
            calls (system.history site (moves ++ List.replicate n .thread)) := by
  obtain ⟨moves, m, hown, hmoves, hsame, hcalls⟩ := h.thread_last hsite hlab hrest hbetween hadmitted hdiscreet
  refine ⟨moves, hown, hmoves, fun n hafter => ?_⟩
  rw [after_append] at hafter
  have hmore : ((system.after site moves).after site (List.replicate (m + n) .thread)).Resting site := by
    rw [Nat.add_comm, List.replicate_add, after_append, hafter.after_thread]
    exact hafter
  obtain ⟨hrested, hnoted⟩ := hmore.unique hafter
  rw [List.replicate_add, after_append] at hrested
  rw [List.replicate_add, history_append] at hnoted
  constructor
  · rw [after_append, after_append, hsame, hrested]
  · rw [history_append, history_append, calls_append, calls_append, (history_own hown system).1, hcalls, hsame,
      ← calls_append, hnoted]
    rfl

/-- However the turns of the experiment thread fall among the turns of the operations, if it rests after each of them:
the same operations get the same answers, the experiments get the same calls, and everything ends in the same state.
The thread may as well take its turns when the operation has been carried out; and if it comes to rest then, it comes
to rest in the same state, after the same calls, wherever it took turns before.  -/
theorem schedules_agree (hsite : site.Standard) (hlab : ∀ e ∈ site.laboratory.experiments, e.Discreet) (world : σ)
    {deeds : List ExperimentDeed} {schedule : List (Move σ)} (trial : Trial site (initial world) deeds schedule) :
    let system := (initial world).after site schedule
    (∀ deeds' schedule', Trial site (initial world) deeds' schedule' →
        deeds'.map ExperimentDeed.operation = deeds.map ExperimentDeed.operation →
        deeds' = deeds ∧
          calls ((initial world).history site schedule') = calls ((initial world).history site schedule) ∧
          (initial world).after site schedule' = system) ∧
      ∀ operation turns, system.CarryOut site turns operation →
        ∃ moves, (∀ move ∈ moves, move.isThread = false) ∧ system.CarryOut site moves operation ∧
          ∀ n, (system.after site (moves ++ List.replicate n .thread)).Resting site →
            system.after site (turns ++ List.replicate n .thread) =
                system.after site (moves ++ List.replicate n .thread) ∧
              calls (system.history site (turns ++ List.replicate n .thread)) =
                calls (system.history site (moves ++ List.replicate n .thread)) := by
  refine ⟨fun _ _ trial' hsame => trial.agree hsite hlab world trial' hsame, fun operation turns hturns => ?_⟩
  obtain ⟨hrest, hbetween, hadmitted⟩ := trial.resting site (resting_initial site world) rfl rfl
  exact hturns.settles hsite hlab hrest hbetween hadmitted (holdsDiscreet_after hlab world schedule)

/-- A pass that hands a request over while the thread starts the experiment. -/
def amongMissions : List (Move Unit) :=
  List.replicate 3 .mission ++ List.replicate 4 .thread ++ List.replicate 2 .mission ++ List.replicate 6 .thread

theorem schedules_agree_in_first_pass :
    calls ((initial ()).history patientSite ([.ask 7, .file 7] ++ amongMissions)) =
        calls ((initial ()).history patientSite
          ([.ask 7, .file 7] ++ (List.replicate 5 .mission ++ List.replicate 10 .thread))) ∧
      (initial ()).after patientSite ([.ask 7, .file 7] ++ amongMissions) =
        (initial ()).after patientSite
          ([.ask 7, .file 7] ++ (List.replicate 5 .mission ++ List.replicate 10 .thread)) := by
  have hlab : ∀ e ∈ patientSite.laboratory.experiments, e.Discreet := by
    intro e he
    obtain rfl := List.mem_singleton.1 he
    exact fun _ _ => ⟨rfl, rfl⟩
  have hrequest : Trial patientSite (initial ()) [.request 7 true] [.ask 7, .file 7] :=
    @Trial.next _ _ _ [] [] [.ask 7, .file 7] (.request 7) .start rfl rfl
  have hearly : ((initial ()).after patientSite [.ask 7, .file 7]).CarryOut patientSite amongMissions .pass :=
    ⟨by simp [amongMissions, Move.isThread, Move.isMission], rfl, rfl⟩
  have hlate : ((initial ()).after patientSite [.ask 7, .file 7]).CarryOut patientSite
      (List.replicate 5 .mission ++ List.replicate 10 .thread) .pass :=
    ⟨by simp [Move.isThread, Move.isMission], rfl, rfl⟩
  exact ((schedules_agree ⟨rfl, rfl⟩ hlab () (.next .pass hrequest hlate rfl)).1 _ _ (.next .pass hrequest hearly rfl)
    rfl).2

end ExperimentSystem

end Spacecraft
