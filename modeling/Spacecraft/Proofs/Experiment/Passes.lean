import Mathlib.Data.List.Infix
import Spacecraft.Proofs.Experiment.Turns

/-!
# What a pass does to the experiments

Of the flags that decide whether a pass lets a waiting experiment go on, two belong to the mission thread alone; nobody
else touches them or notes anything of a pass (`OffPass`).  They tell, with the place in the pass, what the pass has
done so far (`PassState`), so a pass lets a waiting experiment go on at most once, and not at all if it handed a
request over (`Sound`, `passing`).
-/

namespace Spacecraft

open ExperimentNote

/-- What is noted of a pass. -/
def ExperimentMark.ofPass : ExperimentMark → Bool
  | began | handed _ | signalled => true
  | prepared | resumed | abort | shutdown => false

/-- It is the turn of the mission thread. -/
def Move.isMission {σ : Type} : Move σ → Bool
  | mission => true
  | thread | ask _ | file _ | abort | shutdown | close | disturb _ => false

/-! ### What others do -/

/-- What leaves the passes alone. -/
structure OffPass {σ : Type} (notes : List (ExperimentNote σ)) (c c' : ExperimentController) : Prop where
  kicked : c'.kicked = c.kicked
  pendingStart : c'.pendingStart = c.pendingStart
  marks : ∀ mark ∈ ExperimentNote.marks notes, mark.ofPass = false

theorem OffPass.refl {σ : Type} (c : ExperimentController) : OffPass (σ := σ) [] c c :=
  ⟨rfl, rfl, List.forall_mem_nil _⟩

private theorem ExperimentController.foldl_apply_pass (calls : List Call) (c : ExperimentController) :
    (calls.foldl .apply c).kicked = c.kicked ∧ (calls.foldl .apply c).pendingStart = c.pendingStart := by
  induction calls generalizing c with
  | nil => exact ⟨rfl, rfl⟩
  | cons call calls ih =>
    have happly : (c.apply call).kicked = c.kicked ∧ (c.apply call).pendingStart = c.pendingStart := by
      cases call with
      | abort | shutdown => exact ⟨rfl, rfl⟩
      | request code =>
        show (c.request code).2.kicked = _ ∧ (c.request code).2.pendingStart = _
        rw [request_eq]
        cases c.inProgress <;> exact ⟨rfl, rfl⟩
    exact ⟨(ih _).1.trans happly.1, (ih _).2.trans happly.2⟩

theorem ThreadStep.offPass {σ : Type} {lab : Laboratory σ} {host next : ExperimentHost σ}
    {notes : List (ExperimentNote σ)} (hstep : ThreadStep lab host notes next) :
    OffPass notes host.controller next.controller := by
  cases hstep with
  | @iterate c w e result asked w' =>
    obtain ⟨hkicked, hpending⟩ := c.foldl_apply_pass asked
    refine ⟨hkicked, hpending, fun mark hmark => ?_⟩
    have hasked : ∃ call ∈ asked, call.mark? = some mark := by simpa [marks, mark?, Function.comp_def] using hmark
    obtain ⟨call, _, hcall⟩ := hasked
    cases call <;> cases hcall <;> rfl
  | @close c w result => cases result <;> exact ⟨rfl, rfl, List.forall_mem_nil _⟩
  | _ => exact ⟨rfl, rfl, by simp [marks, mark?, ExperimentMark.ofPass]⟩

namespace ExperimentSystem

variable {σ : Type} (site : ExperimentSite σ)

theorem offPass_perform {move : Move σ} (hmove : move.isMission = false) (system : ExperimentSystem σ) :
    (system.perform site move).mission = system.mission ∧
      OffPass (system.noted move) system.host.controller (system.perform site move).host.controller := by
  cases move with
  | mission => cases hmove
  | thread =>
    rcases threadTurn_cases site system with hstep | ⟨_, hnotes, hsame⟩
    · refine ⟨?_, hstep.offPass⟩
      rw [perform]
      split <;> rfl
    · rw [hnotes, hsame]
      exact ⟨rfl, .refl _⟩
  | ask code =>
    rw [perform, noted]
    split <;> exact ⟨rfl, .refl _⟩
  | file code =>
    rw [perform, noted]
    split <;> exact ⟨rfl, rfl, rfl, List.forall_mem_nil _⟩
  | close =>
    rw [perform, noted]
    split <;> exact ⟨rfl, rfl, rfl, List.forall_mem_nil _⟩
  | abort | shutdown => exact ⟨rfl, rfl, rfl, by simp [noted, marks, mark?, ExperimentMark.ofPass]⟩
  | disturb change => exact ⟨rfl, .refl _⟩

/-- What holds at the start, and is kept by every step of the mission thread and by all that leaves the passes alone,
holds after every schedule.  -/
theorem invariant_mission {P : List (ExperimentNote σ) → ExperimentSystem σ → Prop}
    (hmission : ∀ notes system, P notes system → P (notes ++ system.noted .mission) (system.perform site .mission))
    (hother : ∀ notes move system, P notes system → move.isMission = false →
      P (notes ++ system.noted move) (system.perform site move))
    {system : ExperimentSystem σ} (hsystem : P [] system) (schedule : List (Move σ)) :
    P (system.history site schedule) (system.after site schedule) := by
  induction schedule using List.reverseRecOn with
  | nil => exact hsystem
  | append_singleton schedule move ih =>
    rw [history_concat, after_concat]
    cases hmove : move.isMission with
    | true =>
      cases move <;> cases hmove
      exact hmission _ _ ih
    | false => exact hother _ _ _ ih hmove

end ExperimentSystem

/-! ### Stretches of a pass -/

/-- The marks of the pass that is on. -/
def thisPass (marks : List ExperimentMark) : List ExperimentMark := marks.rtakeWhile fun mark => decide (mark ≠ .began)

private theorem thisPass_began (marks : List ExperimentMark) : thisPass (marks ++ [.began]) = [] :=
  List.rtakeWhile_concat_neg _ _ _ (by simp)

private theorem thisPass_append (marks : List ExperimentMark) {more : List ExperimentMark} (h : .began ∉ more) :
    thisPass (marks ++ more) = thisPass marks ++ more :=
  rtakeWhile_append_of_all marks fun _ hmark => decide_eq_true fun heq => h (heq ▸ hmark)

private theorem began_not_mem_thisPass (marks : List ExperimentMark) : .began ∉ thisPass marks := fun h => by
  simpa using List.mem_rtakeWhile_imp h

/-- The marks of a pass, or of a part of it: it lets a waiting experiment go on at most once, and not at all if it
handed a request over.  -/
def Sound (stretch : List ExperimentMark) : Prop :=
  stretch.count .signalled ≤ 1 ∧ ∀ code, .handed code ∈ stretch → .signalled ∉ stretch

theorem Sound.part {stretch longer : List ExperimentMark} (h : Sound longer) (hpart : stretch <:+: longer) :
    Sound stretch :=
  ⟨(hpart.sublist.count_le _).trans h.1, fun code hhanded hsignalled =>
    h.2 code (hpart.subset hhanded) (hpart.subset hsignalled)⟩

/-- Every stretch of marks of one pass is as it should be. -/
def AllSound (marks : List ExperimentMark) : Prop := ∀ stretch, stretch <:+: marks → .began ∉ stretch → Sound stretch

theorem AllSound.part {marks longer : List ExperimentMark} (h : AllSound longer) (hpart : marks <:+: longer) :
    AllSound marks := fun stretch hstretch => h stretch (hstretch.trans hpart)

private theorem AllSound.sound_thisPass {marks : List ExperimentMark} (h : AllSound marks) : Sound (thisPass marks) :=
  h _ (List.rtakeWhile_suffix _ _).isInfix (began_not_mem_thisPass marks)

theorem AllSound.append {marks more : List ExperimentMark} (h : AllSound marks)
    (hmore : Sound (thisPass marks ++ more)) : AllSound (marks ++ more) := by
  intro stretch hstretch hbegan
  rcases List.infix_append_iff.1 hstretch with hpart | hpart | ⟨first, second, rfl, hfirst, hsecond⟩
  · exact h stretch hpart hbegan
  · exact hmore.part (hpart.trans (List.suffix_append _ _).isInfix)
  · -- the first part belongs to the pass that is on
    rw [List.mem_append, not_or] at hbegan
    obtain ⟨before, rfl⟩ := hfirst
    rw [thisPass_append before hbegan.1, List.append_assoc] at hmore
    obtain ⟨after, rfl⟩ := hsecond
    exact hmore.part ⟨thisPass before, after, by simp⟩

private theorem AllSound.append_began {marks : List ExperimentMark} (h : AllSound marks) :
    AllSound (marks ++ [.began]) := by
  intro stretch hstretch hbegan
  rcases List.infix_concat_iff.1 hstretch with hsuffix | hpart
  · rcases List.suffix_concat_iff.1 hsuffix with rfl | ⟨before, rfl, _⟩
    · exact ⟨Nat.zero_le _, fun _ _ => List.not_mem_nil⟩
    · exact absurd (List.mem_append_right before (List.mem_singleton_self _)) hbegan
  · exact h stretch hpart hbegan

/-! ### What a pass has done -/

/-- No action is left that concerns experiments. -/
def KickBehind {σ : Type} : List (PassAction σ) → Prop
  | [] => True
  | .other _ _ :: rest => KickBehind rest
  | .start :: _ | .kick :: _ => False

/-- One action is left that lets a waiting experiment go on, and no request is handed over after it. -/
def KickAhead {σ : Type} : List (PassAction σ) → Prop
  | [] => False
  | .kick :: rest => KickBehind rest
  | .start :: rest | .other _ _ :: rest => KickAhead rest

/-- A pass hands requests over before it lets a waiting experiment go on, and the controller observes its end. -/
structure ExperimentSite.Paced {σ : Type} (site : ExperimentSite σ) : Prop where
  actions : KickAhead site.actions
  observing : site.observing = true

/-- The pass has not let anything go on, and it remembers whether it handed a request over. -/
structure Unsignalled (pass : List ExperimentMark) (c : ExperimentController) : Prop where
  kicked : c.kicked = false
  signalled : .signalled ∉ pass
  pending : c.pendingStart = false → ∀ code, .handed code ∉ pass

/-- The pass has let a waiting experiment go on, and it remembers so. -/
structure Signalled (pass : List ExperimentMark) (c : ExperimentController) : Prop where
  kicked : c.kicked = true
  signalled : pass.count .signalled = 1
  handed : ∀ code, .handed code ∉ pass

/-- What a pass that still has these actions before it can have done. -/
def Choosing {σ : Type} (pass : List ExperimentMark) (c : ExperimentController) (rest : List (PassAction σ)) : Prop :=
  (KickAhead rest ∧ Unsignalled pass c) ∨ (KickBehind rest ∧ (Unsignalled pass c ∨ Signalled pass c))

/-- What a pass can have done at a place of the mission thread. -/
def PassState {σ : Type} (pass : List ExperimentMark) (c : ExperimentController) : MissionPlace σ → Prop
  | .between => c.kicked = false ∧ c.pendingStart = false
  | .choosing rest => Choosing pass c rest
  | .acting .start rest => KickAhead rest ∧ Unsignalled pass c
  | .acting .kick rest => KickBehind rest ∧ Unsignalled pass c ∧ c.pendingStart = false
  | .acting (.other _ _) rest => Choosing pass c rest
  | .releasing => Unsignalled pass c ∧ c.pendingStart = false

theorem Unsignalled.offPass {σ : Type} {pass : List ExperimentMark} {c c' : ExperimentController}
    {notes : List (ExperimentNote σ)} (h : Unsignalled pass c) (hoff : OffPass notes c c') :
    Unsignalled (pass ++ marks notes) c' where
  kicked := hoff.kicked.trans h.kicked
  signalled := by
    rw [List.mem_append]
    exact not_or_intro h.signalled fun hmem => nomatch hoff.marks _ hmem
  pending hpending code := by
    rw [List.mem_append]
    exact not_or_intro (h.pending (hoff.pendingStart.symm.trans hpending) code) fun hmem => nomatch hoff.marks _ hmem

theorem Signalled.offPass {σ : Type} {pass : List ExperimentMark} {c c' : ExperimentController}
    {notes : List (ExperimentNote σ)} (h : Signalled pass c) (hoff : OffPass notes c c') :
    Signalled (pass ++ marks notes) c' where
  kicked := hoff.kicked.trans h.kicked
  signalled := by
    have hnone : (marks notes).count .signalled = 0 := List.count_eq_zero.2 fun hmem => nomatch hoff.marks _ hmem
    rw [List.count_append, h.signalled, hnone]
  handed code := by
    rw [List.mem_append]
    exact not_or_intro (h.handed code) fun hmem => nomatch hoff.marks _ hmem

theorem PassState.offPass {σ : Type} {pass : List ExperimentMark} {c c' : ExperimentController} {place : MissionPlace σ}
    {notes : List (ExperimentNote σ)} (h : PassState pass c place) (hoff : OffPass notes c c') :
    PassState (pass ++ marks notes) c' place := by
  have hchoosing : ∀ {rest : List (PassAction σ)}, Choosing pass c rest → Choosing (pass ++ marks notes) c' rest :=
    Or.imp (.imp_right (·.offPass hoff)) (.imp_right (.imp (·.offPass hoff) (·.offPass hoff)))
  cases place with
  | between => exact ⟨hoff.kicked.trans h.1, hoff.pendingStart.trans h.2⟩
  | choosing rest => exact hchoosing h
  | acting action rest =>
    cases action with
    | start => exact ⟨h.1, h.2.offPass hoff⟩
    | kick => exact ⟨h.1, h.2.1.offPass hoff, hoff.pendingStart.trans h.2.2⟩
    | other name change => exact hchoosing h
  | releasing => exact ⟨h.1.offPass hoff, hoff.pendingStart.trans h.2⟩

private theorem Unsignalled.signal {pass : List ExperimentMark} {c c' : ExperimentController} (h : Unsignalled pass c)
    (hpending : c.pendingStart = false) (hkicked : c'.kicked = true) :
    Signalled (pass ++ [ExperimentMark.signalled]) c' where
  kicked := hkicked
  signalled := by rw [List.count_append, List.count_eq_zero.2 h.signalled, List.count_singleton_self]
  handed code hmem := by
    rcases List.mem_append.1 hmem with hmem | hmem
    · exact h.pending hpending code hmem
    · cases List.mem_singleton.1 hmem

private theorem Signalled.sound {pass : List ExperimentMark} {c : ExperimentController} (h : Signalled pass c) :
    Sound pass :=
  ⟨h.signalled.le, fun code hmem => absurd hmem (h.handed code)⟩

private theorem Sound.append_handed {pass : List ExperimentMark} (h : .signalled ∉ pass) (code : UInt8) :
    Sound (pass ++ [.handed code]) := by
  have hnone : .signalled ∉ pass ++ [.handed code] := by simpa using h
  exact ⟨(List.count_eq_zero.2 hnone).trans_le (Nat.zero_le _), fun _ _ => hnone⟩

private theorem Sound.append_offPass {σ : Type} {pass : List ExperimentMark} {c c' : ExperimentController}
    {notes : List (ExperimentNote σ)} (h : Sound pass) (hoff : OffPass notes c c') : Sound (pass ++ marks notes) := by
  have hnone : .signalled ∉ marks notes := fun hmem => nomatch hoff.marks _ hmem
  refine ⟨?_, fun code hhanded hsignalled => ?_⟩
  · rw [List.count_append, List.count_eq_zero.2 hnone]
    exact h.1
  · have hhanded' := (List.mem_append.1 hhanded).resolve_right fun hmem => nomatch hoff.marks _ hmem
    exact h.2 code hhanded' ((List.mem_append.1 hsignalled).resolve_right hnone)

/-- The condition of an action holds. -/
def PassAction.ready {σ : Type} (c : ExperimentController) : PassAction σ → Bool
  | start => c.startCondition
  | kick => c.kickCondition
  | other _ _ => true

namespace ExperimentSystem

variable {σ : Type} {site : ExperimentSite σ}

theorem missionStep_choosing (host : ExperimentHost σ) (action : PassAction σ) (rest : List (PassAction σ))
    (admitted : List UInt8) :
    missionStep site ⟨host, .choosing (action :: rest), admitted⟩ =
      ⟨host, if action.ready host.controller then .acting action rest else .choosing rest, admitted⟩ := by
  cases action with
  | start =>
    cases h : host.controller.startCondition <;>
      simp [missionStep, PassAction.hook, ExperimentHost.startAction, PassAction.ready, ConditionOutcome.ofBool, h]
  | kick =>
    cases h : host.controller.kickCondition <;>
      simp [missionStep, PassAction.hook, ExperimentHost.kickAction, PassAction.ready, ConditionOutcome.ofBool, h]
  | other name change => rfl

/-- All passes have been as they should be, and the one that is on knows what it has done. -/
def Passing (notes : List (ExperimentNote σ)) (system : ExperimentSystem σ) : Prop :=
  AllSound (marks notes) ∧ PassState (thisPass (marks notes)) system.host.controller system.mission

namespace Passing

variable {notes : List (ExperimentNote σ)} {c : ExperimentController} {thread : ExperimentThread σ} {w : σ}
  {admitted : List UInt8}

theorem choose (site : ExperimentSite σ) {action : PassAction σ} {rest : List (PassAction σ)}
    (h : Passing notes ⟨⟨c, thread, w⟩, .choosing (action :: rest), admitted⟩) :
    Passing notes (missionStep site ⟨⟨c, thread, w⟩, .choosing (action :: rest), admitted⟩) := by
  obtain ⟨hsound, hstate⟩ := h
  rw [missionStep_choosing]
  refine ⟨hsound, ?_⟩
  cases action with
  | start =>
    obtain ⟨hahead, hunsignalled⟩ := hstate.resolve_right fun h => h.1
    show PassState _ c (if c.startCondition = true then _ else _)
    split
    · exact ⟨hahead, hunsignalled⟩
    · exact Or.inl ⟨hahead, hunsignalled⟩
  | kick =>
    obtain ⟨hbehind, hunsignalled⟩ := hstate.resolve_right fun h => h.1
    show PassState _ c (if c.kickCondition = true then _ else _)
    split
    · rename_i hready
      rw [ExperimentController.kickCondition, Bool.and_eq_true, Bool.not_eq_true'] at hready
      exact ⟨hbehind, hunsignalled, hready.2⟩
    · exact Or.inr ⟨hbehind, Or.inl hunsignalled⟩
  | other name change => exact hstate

theorem act (site : ExperimentSite σ) {action : PassAction σ} {rest : List (PassAction σ)}
    (h : Passing notes ⟨⟨c, thread, w⟩, .acting action rest, admitted⟩) :
    let system : ExperimentSystem σ := ⟨⟨c, thread, w⟩, .acting action rest, admitted⟩
    Passing (notes ++ system.noted .mission) (missionStep site system) := by
  obtain ⟨hsound, hstate⟩ := h
  intro system
  rw [Passing, marks_append]
  cases action with
  | start =>
    obtain ⟨hahead, hunsignalled⟩ := hstate
    show AllSound (marks notes ++ marks (c.info.requested.map _ |>.map _).toList) ∧
      PassState (thisPass (marks notes ++ marks (c.info.requested.map _ |>.map _).toList)) c.start (.choosing rest)
    rw [ExperimentController.start]
    cases c.info.requested with
    | none =>
      show AllSound (marks notes ++ []) ∧ PassState (thisPass (marks notes ++ [])) c _
      rw [List.append_nil]
      exact ⟨hsound, Or.inl ⟨hahead, hunsignalled⟩⟩
    | some code =>
      show AllSound (marks notes ++ [.handed code]) ∧ PassState (thisPass (marks notes ++ [.handed code])) _ _
      rw [thisPass_append _ (by simp)]
      refine ⟨hsound.append (.append_handed hunsignalled.signalled code), Or.inl ⟨hahead, hunsignalled.kicked, ?_, ?_⟩⟩
      · simpa using hunsignalled.signalled
      · intro hpending
        cases hpending
  | kick =>
    obtain ⟨hbehind, hunsignalled, hpending⟩ := hstate
    have hsignalled : Signalled (thisPass (marks notes) ++ [.signalled]) c.kick := hunsignalled.signal hpending rfl
    show AllSound (marks notes ++ [.signalled]) ∧
      PassState (thisPass (marks notes ++ [.signalled])) c.kick (.choosing rest)
    rw [thisPass_append _ (by simp)]
    exact ⟨hsound.append hsignalled.sound, Or.inr ⟨hbehind, Or.inr hsignalled⟩⟩
  | other name change =>
    show AllSound (marks notes ++ []) ∧ PassState (thisPass (marks notes ++ [])) c (.choosing rest)
    rw [List.append_nil]
    exact ⟨hsound, hstate⟩

/-- The end of a pass. -/
theorem finish (hpaced : site.Paced) (h : Passing notes ⟨⟨c, thread, w⟩, .choosing [], admitted⟩) :
    Passing notes (missionStep site ⟨⟨c, thread, w⟩, .choosing [], admitted⟩) := by
  obtain ⟨hsound, hstate⟩ := h
  rw [missionStep, if_pos hpaced.observing]
  refine ⟨hsound, ?_⟩
  show PassState _ c.closePass (if c.releases = true then _ else _)
  split
  · rename_i hreleases
    rw [ExperimentController.releases, Bool.and_eq_true, Bool.and_eq_true, Bool.not_eq_true',
      Bool.not_eq_true'] at hreleases
    obtain ⟨⟨hkicked, hpending⟩, _⟩ := hreleases
    obtain ⟨_, hunsignalled | hsignalled⟩ := hstate.resolve_left fun h => h.1
    · exact ⟨⟨rfl, hunsignalled.signalled, fun _ => hunsignalled.pending hpending⟩, rfl⟩
    · cases hkicked.symm.trans hsignalled.kicked
  · exact ⟨rfl, rfl⟩

theorem missionStep (hpaced : site.Paced) {system : ExperimentSystem σ} (h : Passing notes system) :
    Passing (notes ++ system.noted .mission) (system.perform site .mission) := by
  obtain ⟨⟨c, thread, w⟩, mission, admitted⟩ := system
  cases mission with
  | between =>
    rw [Passing, marks_append]
    refine ⟨h.1.append_began, ?_⟩
    show PassState (thisPass (marks notes ++ [.began])) c (.choosing site.actions)
    rw [thisPass_began]
    exact Or.inl ⟨hpaced.actions, h.2.1, List.not_mem_nil, fun _ _ => List.not_mem_nil⟩
  | choosing rest =>
    rw [noted, missionMark?, Option.map_none, Option.toList_none, List.append_nil]
    cases rest with
    | nil => exact h.finish hpaced
    | cons action rest => exact h.choose site
  | acting action rest => exact h.act site
  | releasing =>
    obtain ⟨hsound, hunsignalled, hpending⟩ := h
    have hsignalled : Signalled (thisPass (marks notes) ++ [.signalled]) c.kick := hunsignalled.signal hpending rfl
    rw [Passing, marks_append]
    exact ⟨hsound.append hsignalled.sound, hunsignalled.kicked, hpending⟩

end Passing

theorem passing (hpaced : site.Paced) (world : σ) (schedule : List (Move σ)) :
    Passing ((initial world).history site schedule) ((initial world).after site schedule) := by
  refine invariant_mission site (P := Passing) (fun _ _ h => h.missionStep hpaced) ?_ ?_ schedule
  · intro notes move system ⟨hsound, hstate⟩ hmove
    obtain ⟨hmission, hoff⟩ := offPass_perform site hmove system
    have hbegan : .began ∉ marks (system.noted move) := fun hmem => nomatch hoff.marks _ hmem
    rw [Passing, marks_append, thisPass_append _ hbegan, hmission]
    exact ⟨hsound.append (hsound.sound_thisPass.append_offPass hoff), hstate.offPass hoff⟩
  · refine ⟨fun stretch hstretch _ => ?_, rfl, rfl⟩
    cases List.infix_nil.1 hstretch
    exact ⟨Nat.zero_le _, fun _ _ => List.not_mem_nil⟩

end ExperimentSystem

end Spacecraft
