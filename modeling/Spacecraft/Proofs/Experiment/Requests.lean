import Spacecraft.Proofs.Experiment.Operations

/-!
# Requests on their way to an experiment

An accepted request waits for the next pass, which hands it to the thread, which starts the experiment.  What the
operations say was handed over (`ExperimentDeed.due`) is what the passes do hand over, and of that every code that is
registered has been started or is about to be (`HandedOn`): nothing is lost on the way and nothing comes twice.
-/

namespace Spacecraft

open ExperimentNote

/-! ### What is handed over and what is started -/

def ExperimentMark.handed? : ExperimentMark → Option UInt8
  | handed code => some code
  | prepared | resumed | abort | shutdown | began | signalled => none

def ExperimentCall.started? {σ : Type} : ExperimentCall σ → Option (Experiment σ)
  | start e _ => some e
  | iteration _ _ | stop _ _ => none

namespace ExperimentNote

variable {σ : Type}

/-- The codes that passes handed to the thread. -/
def handed (notes : List (ExperimentNote σ)) : List UInt8 := (marks notes).filterMap ExperimentMark.handed?

/-- The experiments that were started. -/
def started (notes : List (ExperimentNote σ)) : List (Experiment σ) := (calls notes).filterMap ExperimentCall.started?

@[simp]
theorem handed_append (notes more : List (ExperimentNote σ)) :
    handed (notes ++ more) = handed notes ++ handed more := by
  rw [handed, marks_append, List.filterMap_append]
  rfl

@[simp]
theorem started_append (notes more : List (ExperimentNote σ)) :
    started (notes ++ more) = started notes ++ started more := by
  rw [started, calls_append, List.filterMap_append]
  rfl

@[simp]
theorem started_nil : started ([] : List (ExperimentNote σ)) = [] := rfl

private theorem started_of_calls {notes : List (ExperimentNote σ)} (h : calls notes = []) : started notes = [] := by
  rw [started, h]
  rfl

private theorem handed_of_offPass {notes : List (ExperimentNote σ)} (h : ∀ mark ∈ marks notes, mark.ofPass = false) :
    handed notes = [] := by
  refine List.filterMap_eq_nil_iff.2 fun mark hmark => ?_
  have hoff := h mark hmark
  cases mark <;> first | rfl | cases hoff

end ExperimentNote

namespace ExperimentDeed

/-- The request that waits for the next pass, of deeds latest first. -/
def waiting : List ExperimentDeed → Option UInt8
  | [] | .pass :: _ => none
  | .request code true :: _ => some code
  | .request _ false :: deeds | .abort :: deeds => waiting deeds

/-- The requests that passes have handed over, in order, of deeds latest first. -/
def due : List ExperimentDeed → List UInt8
  | [] => []
  | .pass :: deeds => due deeds ++ (waiting deeds).toList
  | .request _ _ :: deeds | .abort :: deeds => due deeds

end ExperimentDeed

/-! ### What the thread still has to start -/

/-- The thread is not in a run, or has not come to its first call. -/
def ExperimentThread.isFresh {σ : Type} : ExperimentThread σ → Bool
  | receiving | received _ | preparing _ | marking _ | publishing _ | starting _ | ended => true
  | unborn | started _ _ | boundary _ | aborting _ | iterating _ | iterated _ _ | pausing _ | resuming _ | stopping _ _
  | closing _ | releasing _ | recording _ => false

/-- What was handed to the thread and is still to be started. -/
def ExperimentHost.awaited {σ : Type} (lab : Laboratory σ) (host : ExperimentHost σ) : List (Experiment σ) :=
  match host.thread with
  | .receiving => host.controller.queue.item.toList.filterMap lab.find?
  | .received code => (lab.find? code).toList
  | .preparing e | .marking e | .publishing e | .starting e => [e]
  | _ => []

private theorem ExperimentHost.awaited_of_item {σ : Type} {lab : Laboratory σ} {c : ExperimentController} {w : σ}
    (hitem : c.queue.item = none) : awaited lab ⟨c, .receiving, w⟩ = [] := by
  simp [awaited, hitem]

private theorem Mailbox.item_of_peek {α : Type} {box : Mailbox α} :
    (∀ a, box.peek = .item a → box.item = some a) ∧ (box.peek = .closed → box.item = none) ∧
      (box.peek = .waiting → box.item = none) := by
  unfold peek
  split <;> rename_i heq
  · simp [heq]
  · split <;> simp [heq]

/-- Requests of an experiment come to nothing: they find its run in progress. -/
private theorem ExperimentController.foldl_apply_of_inProgress {c : ExperimentController} (h : c.inProgress = true)
    (calls : List Call) :
    (calls.foldl .apply c).info.requested = c.info.requested ∧ (calls.foldl .apply c).queue.item = c.queue.item := by
  induction calls generalizing c with
  | nil => exact ⟨rfl, rfl⟩
  | cons call calls ih =>
    cases call with
    | request code =>
      have hsame : c.apply (.request code) = c := by rw [apply, request, if_pos h]
      rw [List.foldl_cons, hsame]
      exact ih h
    | abort => exact @ih c.abort h
    | shutdown => exact @ih c.shutDown h

private theorem ExperimentController.closed_foldl_apply (calls : List Call) {c : ExperimentController}
    (h : c.queue.closed = true → c.events.shutdown = true) :
    (calls.foldl .apply c).queue.closed = true → (calls.foldl .apply c).events.shutdown = true := by
  induction calls generalizing c with
  | nil => exact h
  | cons call calls ih =>
    refine ih ?_
    cases call with
    | request code =>
      show (c.request code).2.queue.closed = true → (c.request code).2.events.shutdown = true
      rw [ExperimentController.request_eq]
      split <;> exact h
    | abort => exact h
    | shutdown => exact fun _ => rfl

private theorem ExperimentSystem.missionStep_of_requested {σ : Type} (site : ExperimentSite σ)
    (system : ExperimentSystem σ)
    (h : system.host.controller.info.requested = none) :
    (system.missionStep site).host.controller.info.requested = none ∧
      (system.missionStep site).host.controller.queue = system.host.controller.queue ∧
      handed (system.noted .mission) = [] := by
  obtain ⟨⟨c, thread, w⟩, mission, admitted⟩ := system
  have hrequested : c.info.requested = none := h
  cases mission with
  | between | releasing => exact ⟨h, rfl, rfl⟩
  | choosing rest =>
    cases rest with
    | nil =>
      simp only [missionStep]
      split <;> exact ⟨h, rfl, rfl⟩
    | cons action rest =>
      rw [missionStep_choosing]
      exact ⟨h, rfl, rfl⟩
  | acting action rest =>
    cases action with
    | start =>
      have hstart : c.start = c := by rw [ExperimentController.start, hrequested]
      have hnoted : noted .mission ⟨⟨c, thread, w⟩, .acting .start rest, admitted⟩ = [] := by
        simp [noted, missionMark?, hrequested]
      rw [hnoted]
      show c.start.info.requested = none ∧ c.start.queue = c.queue ∧ _
      rw [hstart]
      exact ⟨h, rfl, rfl⟩
    | kick | other name change => exact ⟨h, rfl, rfl⟩

/-- What was handed over has been started, or is still to be started; nothing else is. -/
structure HandedOn {σ : Type} (lab : Laboratory σ) (codes : List UInt8) (notes : List (ExperimentNote σ))
    (host : ExperimentHost σ) : Prop where
  requested : host.controller.info.requested = none
  handed : handed notes = codes
  item : host.controller.queue.item ≠ none → host.thread = .receiving
  started : host.controller.events.shutdown = false →
    started notes ++ host.awaited lab = codes.filterMap lab.find?

namespace HandedOn

variable {σ : Type} {lab : Laboratory σ} {codes : List UInt8} {notes more : List (ExperimentNote σ)}
  {host next : ExperimentHost σ}

/-- What changes nothing of what is still to be started. -/
theorem quiet (h : HandedOn lab codes notes host) (hrequested : next.controller.info.requested = none)
    (hhanded : ExperimentNote.handed more = [])
    (hitem : next.controller.queue.item ≠ none → next.thread = .receiving)
    (hshut : next.controller.events.shutdown = false → host.controller.events.shutdown = false)
    (hstarted : next.controller.events.shutdown = false →
      ExperimentNote.started more ++ next.awaited lab = host.awaited lab) : HandedOn lab codes (notes ++ more) next where
  requested := hrequested
  handed := by rw [handed_append, hhanded, List.append_nil, h.handed]
  item := hitem
  started hopen := by rw [started_append, List.append_assoc, hstarted hopen, h.started (hshut hopen)]

private theorem item_eq_none (h : HandedOn lab codes notes host) (hthread : host.thread ≠ .receiving) :
    host.controller.queue.item = none := by
  by_contra hitem
  exact hthread (h.item hitem)

theorem threadStep (h : HandedOn lab codes notes host) (hmarked : host.controller.inProgress = host.thread.isMarked)
    (hstep : ThreadStep lab host more next) : HandedOn lab codes (notes ++ more) next := by
  have hkept : next.controller.events.shutdown = false → host.controller.events.shutdown = false := fun hopen => by
    cases hshut : host.controller.events.shutdown with
    | false => rfl
    | true => exact (hstep.kept.1 hshut).symm.trans hopen
  have hhanded : ExperimentNote.handed more = [] := handed_of_offPass hstep.offPass.marks
  cases hstep with
  | @receive c w code hpeek =>
    refine h.quiet h.requested rfl (fun hitem => absurd rfl hitem) hkept fun _ => ?_
    simp only [ExperimentHost.awaited, Mailbox.item_of_peek.1 code hpeek, Option.toList_some]
    cases hfind : lab.find? code <;> simp [hfind]
  | hangUp hpeek =>
    have hitem := Mailbox.item_of_peek.2.1 hpeek
    refine h.quiet h.requested rfl (fun hne => absurd hitem hne) hkept fun _ => ?_
    rw [ExperimentHost.awaited_of_item hitem]
    rfl
  | drop hshut =>
    refine h.quiet h.requested rfl (fun hitem => nomatch h.item hitem) hkept fun hopen => ?_
    cases hshut.symm.trans (hkept hopen)
  | @skip c w code _ hfind =>
    have hitem := h.item_eq_none (by simp)
    refine h.quiet h.requested rfl (fun hne => absurd hitem hne) hkept fun _ => ?_
    refine (ExperimentHost.awaited_of_item hitem).trans ?_
    show [] = (lab.find? code).toList
    rw [hfind, Option.toList_none]
  | find _ hfind =>
    refine h.quiet h.requested rfl (fun hitem => nomatch h.item hitem) hkept fun _ => ?_
    simp [ExperimentHost.awaited, hfind]
  | @iterate c w e result asked w' =>
    -- what the experiment asks for is turned down, so nothing new waits for a pass
    obtain ⟨hrequested, hsame⟩ := ExperimentController.foldl_apply_of_inProgress hmarked asked
    refine h.quiet (hrequested.trans h.requested) hhanded (fun hitem => nomatch h.item (hsame ▸ hitem)) hkept
      fun _ => ?_
    rw [ExperimentNote.started, calls_call_marks]
    rfl
  | release | record =>
    have hitem := h.item_eq_none (by simp)
    exact h.quiet h.requested rfl (fun hne => absurd hitem hne) hkept fun _ => ExperimentHost.awaited_of_item hitem
  | @close c w result =>
    cases result <;> exact h.quiet h.requested rfl (fun hitem => nomatch h.item hitem) hkept fun _ => rfl
  | _ => exact h.quiet h.requested rfl (fun hitem => nomatch h.item hitem) hkept fun _ => rfl

/-- A step of a pass that has nothing to hand over. -/
theorem missionStep {site : ExperimentSite σ} {system : ExperimentSystem σ} (h : HandedOn lab codes notes system.host) :
    HandedOn lab codes (notes ++ system.noted .mission) (system.missionStep site).host := by
  obtain ⟨hthread, hbeside⟩ := system.missionStep_beside site
  have hcalls : calls (system.noted .mission) = [] := hbeside.calls
  obtain ⟨hrequested, hqueue, hhanded⟩ := system.missionStep_of_requested site h.requested
  have hawaited : (system.missionStep site).host.awaited lab = system.host.awaited lab := by
    rw [ExperimentHost.awaited, ExperimentHost.awaited, hthread, hqueue]
  refine h.quiet hrequested hhanded (fun hitem => hthread.trans (h.item (hqueue ▸ hitem))) (fun hopen => ?_) fun _ => ?_
  · cases hshut : system.host.controller.events.shutdown with
    | false => rfl
    | true => exact (hbeside.shutdown.2 (Or.inl hshut)).symm.trans hopen
  · rw [started_of_calls hcalls, hawaited, List.nil_append]

end HandedOn

/-- Calls that begin with the start of an experiment, unless the thread has not come to it yet. -/
def Opening {σ : Type} (notes : List (ExperimentNote σ)) (host : ExperimentHost σ) : Prop :=
  (calls notes = [] ∧ host.thread.isFresh = true) ∨ ∃ e result rest, calls notes = .start e result :: rest

namespace Opening

variable {σ : Type} {notes more : List (ExperimentNote σ)} {host next : ExperimentHost σ}

theorem threadStep {lab : Laboratory σ} (h : Opening notes host) (hstep : ThreadStep lab host more next) :
    Opening (notes ++ more) next := by
  rcases h with ⟨hcalls, hfresh⟩ | ⟨e, result, rest, hcalls⟩
  · rw [Opening, calls_append, hcalls, List.nil_append]
    cases hstep with
    | receive | hangUp | drop | skip | find | prepare | mark | publish => exact Or.inl ⟨rfl, rfl⟩
    | start => exact Or.inr ⟨_, _, [], rfl⟩
    | _ => cases hfresh
  · rw [Opening, calls_append, hcalls]
    exact Or.inr ⟨e, result, rest ++ calls more, rfl⟩

theorem quiet (h : Opening notes host) (hcalls : calls more = []) (hthread : next.thread = host.thread) :
    Opening (notes ++ more) next := by
  rw [Opening, calls_append, hcalls, List.append_nil, hthread]
  exact h

end Opening

namespace ExperimentSystem

variable {σ : Type} {site : ExperimentSite σ}

/-! ### Where the thread can be -/

/-- The system after some schedule. -/
def Reachable (site : ExperimentSite σ) (system : ExperimentSystem σ) : Prop :=
  ∃ world schedule, system = (initial world).after site schedule

theorem Reachable.after {system : ExperimentSystem σ} (h : system.Reachable site) (schedule : List (Move σ)) :
    (system.after site schedule).Reachable site := by
  obtain ⟨world, before, rfl⟩ := h
  exact ⟨world, before ++ schedule, (after_append site before schedule _).symm⟩

private theorem Reachable.marked {system : ExperimentSystem σ} (h : system.Reachable site) :
    system.host.controller.inProgress = system.host.thread.isMarked := by
  obtain ⟨world, schedule, rfl⟩ := h
  exact inProgress_eq_isMarked site world schedule

/-- The mailbox is closed, and the thread ends, only after a shutdown. -/
def ShutFirst (host : ExperimentHost σ) : Prop :=
  host.controller.queue.closed = true ∨ host.thread = .ended → host.controller.events.shutdown = true

theorem ShutFirst.threadStep {lab : Laboratory σ} {host next : ExperimentHost σ} {notes : List (ExperimentNote σ)}
    (h : ShutFirst host) (hstep : ThreadStep lab host notes next) : ShutFirst next := by
  cases hstep with
  | @hangUp c w hpeek =>
    have hclosed : c.queue.closed = true := by
      cases hclosed : c.queue.closed with
      | true => rfl
      | false =>
        rw [(Mailbox.peek_eq_waiting_iff _).2 ⟨Mailbox.item_of_peek.2.1 hpeek, hclosed⟩] at hpeek
        cases hpeek
    exact fun _ => h (Or.inl hclosed)
  | drop hshut => exact fun _ => hshut
  | @iterate c w e result asked w' =>
    intro hclosed
    refine ExperimentController.closed_foldl_apply asked (fun hclosed => h (Or.inl hclosed)) ?_
    exact hclosed.resolve_right (fun hended => nomatch hended)
  | @close c w result =>
    cases result <;> exact fun hclosed => h (Or.inl (hclosed.resolve_right fun hended => nomatch hended))
  | _ => exact fun hclosed => h (Or.inl (hclosed.resolve_right fun hended => nomatch hended))

private theorem closed_missionStep (system : ExperimentSystem σ) :
    (system.missionStep site).host.controller.queue.closed = system.host.controller.queue.closed := by
  obtain ⟨⟨c, thread, w⟩, mission, admitted⟩ := system
  cases mission with
  | between | releasing => rfl
  | choosing rest =>
    cases rest with
    | nil =>
      simp only [missionStep]
      split <;> rfl
    | cons action rest => rw [missionStep_choosing]
  | acting action rest =>
    cases action with
    | start =>
      show c.start.queue.closed = c.queue.closed
      rw [ExperimentController.start]
      split <;> rfl
    | kick | other name change => rfl

private theorem closed_perform {move : Move σ} (hmove : move.isThread = false) {system : ExperimentSystem σ}
    (h : (system.perform site move).host.controller.queue.closed = true) :
    system.host.controller.queue.closed = true ∨ (system.perform site move).host.controller.events.shutdown = true := by
  cases move with
  | thread => cases hmove
  | mission =>
    rw [perform, closed_missionStep] at h
    exact Or.inl h
  | ask code =>
    rw [perform] at h
    split at h <;> exact Or.inl h
  | file code =>
    rw [perform] at h
    split at h <;> exact Or.inl h
  | abort | disturb change => exact Or.inl h
  | shutdown => exact Or.inr rfl
  | close =>
    rw [perform] at h ⊢
    split at h
    · rename_i hshut
      rw [if_pos hshut]
      exact Or.inr hshut
    · exact Or.inl h

private theorem shutFirst (world : σ) (schedule : List (Move σ)) :
    ShutFirst ((initial world).after site schedule).host := by
  induction schedule using List.reverseRecOn with
  | nil => exact fun h => h.elim (fun hclosed => nomatch hclosed) fun hended => nomatch hended
  | append_singleton schedule move ih =>
    rw [after_concat]
    cases hmove : move.isThread with
    | true =>
      cases move <;> cases hmove
      rcases threadTurn_cases site ((initial world).after site schedule) with hstep | ⟨-, -, hsame⟩
      · exact ih.threadStep hstep
      · rwa [hsame]
    | false =>
      obtain ⟨hthread, hbeside⟩ := turn_beside site hmove ((initial world).after site schedule)
      rintro (hclosed | hended)
      · rcases closed_perform hmove hclosed with hbefore | hshut
        · exact hbeside.shutdown.2 (Or.inl (ih (Or.inl hbefore)))
        · exact hshut
      · exact hbeside.shutdown.2 (Or.inl (ih (Or.inr (hthread ▸ hended))))

/-- Unless it was shut down, a thread that rests waits for a code or, in a run, for the next pass. -/
theorem Resting.place {system : ExperimentSystem σ} (hreach : system.Reachable site) (hrest : system.Resting site)
    (hopen : system.host.controller.events.shutdown = false) :
    (system.host.thread = .receiving ∧ system.host.controller.queue.item = none ∧
        system.host.controller.inProgress = false ∧ system.host.thread.inRun = false) ∨
      ∃ e, system.host.thread = .pausing e ∧ system.host.controller.inProgress = true ∧
        system.host.thread.inRun = true := by
  have hmarked := hreach.marked
  obtain ⟨world, schedule, rfl⟩ := hreach
  rcases ExperimentHost.blocked_cases hrest with hthread | hthread | ⟨hthread, hwaiting⟩ | ⟨e, hthread, -⟩
  · have hspawned := wasSpawned_after site world schedule
    rw [hthread] at hspawned
    cases hspawned
  · cases hopen.symm.trans (shutFirst world schedule (Or.inr hthread))
  · rw [hthread] at hmarked ⊢
    exact Or.inl ⟨rfl, Mailbox.item_of_peek.2.2 hwaiting, hmarked, rfl⟩
  · rw [hthread] at hmarked ⊢
    exact Or.inr ⟨e, rfl, hmarked, rfl⟩

end ExperimentSystem

/-! ### What an operation hands over -/

namespace HandedOn

open ExperimentSystem

variable {σ : Type} {site : ExperimentSite σ}

theorem turn {codes : List UInt8} {notes : List (ExperimentNote σ)} {system : ExperimentSystem σ}
    (hreach : system.Reachable site) (h : HandedOn site.laboratory codes notes system.host) :
    HandedOn site.laboratory codes (notes ++ system.noted .thread) (system.perform site .thread).host := by
  rcases threadTurn_cases site system with hstep | ⟨-, hnotes, hsame⟩
  · exact h.threadStep hreach.marked hstep
  · rwa [hnotes, hsame, List.append_nil]

private theorem threads {codes : List UInt8} {notes : List (ExperimentNote σ)} {system : ExperimentSystem σ}
    (hreach : system.Reachable site) (h : HandedOn site.laboratory codes notes system.host) (n : Nat) :
    HandedOn site.laboratory codes (notes ++ system.history site (List.replicate n .thread))
      (system.after site (List.replicate n .thread)).host := by
  induction n with
  | zero =>
    rw [List.replicate_zero, history, List.append_nil]
    exact h
  | succ n ih =>
    rw [List.replicate_succ', history_concat, after_concat, ← List.append_assoc]
    exact turn (hreach.after _) ih

/-- All that was handed over to a thread that rests has been started. -/
private theorem rested {codes : List UInt8} {notes : List (ExperimentNote σ)} {system : ExperimentSystem σ}
    (hreach : system.Reachable site) (hrest : system.Resting site)
    (hopen : system.host.controller.events.shutdown = false)
    (h : HandedOn site.laboratory codes notes system.host) :
    system.host.controller.queue.item = none ∧
      ExperimentNote.started notes = codes.filterMap site.laboratory.find? := by
  have hstarted := h.started hopen
  rcases hrest.place hreach hopen with ⟨hthread, hitem, -⟩ | ⟨e, hthread, -⟩
  · rw [ExperimentHost.awaited, hthread, hitem] at hstarted
    exact ⟨hitem, (List.append_nil _).symm.trans hstarted⟩
  · have hitem := h.item_eq_none (by simp [hthread])
    rw [ExperimentHost.awaited, hthread] at hstarted
    exact ⟨hitem, (List.append_nil _).symm.trans hstarted⟩

end HandedOn

namespace ExperimentSystem

variable {σ : Type} {site : ExperimentSite σ}

/-- The pass has not come to handing the request over, and the thread rests. -/
structure AboutToHand (start : ExperimentSystem σ) (notes : List (ExperimentNote σ)) (system : ExperimentSystem σ) :
    Prop where
  host : system.host = start.host
  place : system.mission = .choosing [.start, .kick] ∨ system.mission = .acting .start [.kick]
  handed : handed notes = []
  calls : calls notes = []

/-- What a pass does with the request that waited for it. -/
def PassHands (site : ExperimentSite σ) (start : ExperimentSystem σ) (waiting : Option UInt8)
    (notes : List (ExperimentNote σ)) (system : ExperimentSystem σ) : Prop :=
  (waiting ≠ none ∧ AboutToHand start notes system) ∨
    (HandedOn site.laboratory waiting.toList notes system.host ∧ (waiting ≠ none → Opening notes system.host))

namespace PassHands

variable {start system : ExperimentSystem σ} {waiting : Option UInt8} {notes : List (ExperimentNote σ)}

theorem thread (hreach : system.Reachable site) (hrest : start.Resting site)
    (h : PassHands site start waiting notes system) :
    PassHands site start waiting (notes ++ system.noted .thread) (system.perform site .thread) := by
  rcases h with ⟨hwaiting, habout⟩ | ⟨hhanded, hopening⟩
  · have hrested : system.Resting site := by
      rw [Resting, habout.host]
      exact hrest
    rw [hrested.perform_thread, hrested.noted_thread, List.append_nil]
    exact Or.inl ⟨hwaiting, habout⟩
  · refine Or.inr ⟨.turn hreach hhanded, fun hwaiting => ?_⟩
    rcases threadTurn_cases site system with hstep | ⟨-, hnotes, hsame⟩
    · exact (hopening hwaiting).threadStep hstep
    · rw [hnotes, hsame, List.append_nil]
      exact hopening hwaiting

theorem mission (hrequested : start.host.controller.info.requested = waiting)
    (hidle : waiting ≠ none → start.host.thread = .receiving ∧ start.host.controller.inProgress = false)
    (h : PassHands site start waiting notes system) :
    PassHands site start waiting (notes ++ system.noted .mission) (system.perform site .mission) := by
  rcases h with ⟨hwaiting, habout⟩ | ⟨hhanded, hopening⟩
  · obtain ⟨hthread, hprogress⟩ := hidle hwaiting
    obtain ⟨code, rfl⟩ := Option.ne_none_iff_exists'.1 hwaiting
    obtain ⟨⟨c, thread, w⟩, mission, admitted⟩ := start
    obtain ⟨host, place, admitted'⟩ := system
    obtain rfl : thread = .receiving := hthread
    obtain ⟨rfl, hplace, hnone, hcalls⟩ := habout
    rcases hplace with rfl | rfl
    · have hready : PassAction.ready (σ := σ) c .start = true := by
        show (c.info.requested.isSome && !c.inProgress) = true
        rw [show c.info.requested = some code from hrequested, show c.inProgress = false from hprogress]
        rfl
      rw [perform, missionStep_choosing, if_pos hready, noted, missionMark?]
      exact Or.inl ⟨hwaiting, rfl, Or.inr rfl, by simpa using hnone, by simpa using hcalls⟩
    · have hstart : c.start = { c with
          info := { c.info with requested := none }, pendingStart := true, queue := c.queue.overwrite code } := by
        rw [ExperimentController.start, show c.info.requested = some code from hrequested]
      have hnoted : noted .mission ⟨⟨c, .receiving, w⟩, .acting .start [.kick], admitted'⟩ =
          [.mark (.handed code)] := by
        simp [noted, missionMark?, show c.info.requested = some code from hrequested]
      rw [hnoted]
      refine Or.inr ⟨?_, fun _ => Or.inl ⟨?_, rfl⟩⟩
      · show HandedOn site.laboratory [code] (notes ++ [.mark (.handed code)]) ⟨c.start, .receiving, w⟩
        rw [hstart]
        refine ⟨rfl, ?_, fun _ => rfl, fun _ => ?_⟩
        · rw [handed_append, hnone]
          rfl
        · rw [started_append, started_of_calls hcalls]
          rfl
      · rw [calls_append, hcalls]
        rfl
  · refine Or.inr ⟨hhanded.missionStep, fun hwaiting => ?_⟩
    obtain ⟨hthread, hbeside⟩ := system.missionStep_beside site
    exact (hopening hwaiting).quiet hbeside.calls hthread

theorem begin (hactions : site.actions = [.start, .kick]) (hreach : start.Reachable site) (hrest : start.Resting site)
    (hopen : start.host.controller.events.shutdown = false) (hitem : start.host.controller.queue.item = none)
    (hrequested : start.host.controller.info.requested = waiting) :
    PassHands site start waiting [.mark .began] { start with mission := .choosing site.actions } := by
  cases waiting with
  | some code => exact Or.inl ⟨Option.some_ne_none code, rfl, Or.inl (congrArg _ hactions), rfl, rfl⟩
  | none =>
    refine Or.inr ⟨⟨hrequested, rfl, fun hne => absurd hitem hne, fun _ => ?_⟩, fun hne => absurd rfl hne⟩
    show ExperimentHost.awaited site.laboratory start.host = []
    rcases hrest.place hreach hopen with ⟨hthread, -⟩ | ⟨e, hthread, -⟩
    · rw [ExperimentHost.awaited, hthread, hitem]
      rfl
    · rw [ExperimentHost.awaited, hthread]

end PassHands

/-- A pass hands over what waited for it, if the thread rested before, and makes the calls that come of it. -/
private theorem handedOn_pass (hactions : site.actions = [.start, .kick]) {system : ExperimentSystem σ}
    {waiting : Option UInt8}
    (hreach : system.Reachable site) (hrest : system.Resting site) (hbetween : system.mission = .between)
    (hopen : system.host.controller.events.shutdown = false) (hitem : system.host.controller.queue.item = none)
    (hrequested : system.host.controller.info.requested = waiting)
    (hidle : waiting ≠ none → system.host.thread = .receiving ∧ system.host.controller.inProgress = false)
    {turns : List (Move σ)} (h : system.CarryOut site turns .pass) :
    HandedOn site.laboratory waiting.toList (system.history site turns) (system.after site turns).host ∧
      (waiting ≠ none → Opening (system.history site turns) (system.after site turns).host) := by
  have hhands := pass_invariant site
    (P := fun notes next => next.Reachable site ∧ PassHands site system waiting notes next) hrest hbetween ?_ ?_ ?_ h
  · refine hhands.2.resolve_left fun ⟨_, habout⟩ => ?_
    rcases habout.place with hplace | hplace <;> cases h.2.1.symm.trans hplace
  · refine ⟨?_, .begin hactions hreach hrest hopen hitem hrequested⟩
    have hfirst : system.after site [.mission] = { system with mission := .choosing site.actions } := by
      rw [after, List.foldl_cons, List.foldl_nil, perform, missionStep, hbetween]
    exact hfirst ▸ hreach.after [.mission]
  · rintro _ next ⟨hnext, hhands⟩ -
    exact ⟨hnext.after [.mission], hhands.mission hrequested hidle⟩
  · rintro _ next ⟨hnext, hhands⟩
    exact ⟨hnext.after [.thread], hhands.thread hnext hrest⟩

/-- The account between two operations. -/
structure Kept (site : ExperimentSite σ) (deeds : List ExperimentDeed) (notes : List (ExperimentNote σ))
    (system : ExperimentSystem σ) : Prop where
  requested : system.host.controller.info.requested = ExperimentDeed.waiting deeds
  idle : ExperimentDeed.waiting deeds ≠ none → system.host.thread = .receiving
  item : system.host.controller.queue.item = none
  handed : handed notes = ExperimentDeed.due deeds
  started : started notes = (ExperimentDeed.due deeds).filterMap site.laboratory.find?

namespace Kept

variable {deeds : List ExperimentDeed} {notes : List (ExperimentNote σ)} {system : ExperimentSystem σ}
  {turns : List (Move σ)}

private theorem noRun (h : Kept site deeds notes system) (hreach : system.Reachable site)
    (hwaiting : ExperimentDeed.waiting deeds ≠ none) :
    system.host.thread = .receiving ∧ system.host.controller.inProgress = false := by
  have hthread := h.idle hwaiting
  refine ⟨hthread, ?_⟩
  rw [hreach.marked, hthread]
  rfl

theorem request (h : Kept site deeds notes system) (hreach : system.Reachable site) (hrest : system.Resting site)
    (hopen : system.host.controller.events.shutdown = false) (hadmitted : system.admitted = []) {code : UInt8}
    (hturns : system.CarryOut site turns (.request code)) :
    Kept site (ExperimentOperation.deed system.host.controller (.request code) :: deeds)
      (notes ++ system.history site turns) (system.after site turns) := by
  obtain ⟨hafter, hhistory⟩ := after_request site hrest hadmitted hturns
  rw [hafter, hhistory, List.append_nil, ExperimentOperation.deed, ExperimentController.request_eq]
  cases hprogress : system.host.controller.inProgress with
  | true => exact ⟨h.requested, h.idle, h.item, h.handed, h.started⟩
  | false =>
    refine ⟨rfl, fun _ => ?_, h.item, h.handed, h.started⟩
    rcases hrest.place hreach hopen with ⟨hthread, -⟩ | ⟨e, -, hinProgress, -⟩
    · exact hthread
    · cases hprogress.symm.trans hinProgress

theorem abort (h : Kept site deeds notes system) (hreach : system.Reachable site) (hrest : system.Resting site)
    (hopen : system.host.controller.events.shutdown = false) (hturns : system.CarryOut site turns .abort)
    (hrest' : (system.after site turns).Resting site)
    (hopen' : (system.after site turns).host.controller.events.shutdown = false) :
    Kept site (.abort :: deeds) (notes ++ system.history site turns) (system.after site turns) := by
  obtain ⟨n, hafter, hhistory⟩ := after_abort site hrest hturns
  have hreach' : (system.control .abort).Reachable site := hreach.after [.abort]
  rcases hrest.place hreach hopen with ⟨hthread, -⟩ | ⟨e, hthread, -⟩
  · -- nothing comes of an abort while the thread waits for a code
    have hrested : (system.control .abort).Resting site := by
      obtain ⟨⟨c, thread, w⟩, mission, admitted⟩ := system
      obtain rfl : thread = .receiving := hthread
      have hwaiting : c.queue.peek = .waiting := by
        rcases ExperimentHost.blocked_cases hrest with hthread | hthread | ⟨-, hwaiting⟩ | ⟨_, hthread, -⟩
        · cases hthread
        · cases hthread
        · exact hwaiting
        · cases hthread
      simp only [Resting, control, ExperimentHost.control, ExperimentHost.step,
        show c.abort.queue.peek = .waiting from hwaiting]
    rw [hafter, hhistory, hrested.after_thread, hrested.history_thread]
    refine ⟨h.requested, h.idle, h.item, ?_, ?_⟩
    · rw [handed_append, h.handed]
      exact List.append_nil _
    · rw [started_append, h.started]
      exact List.append_nil _
  · -- in a run the abort may bring it to its end, but hands nothing over
    have hnone : ExperimentDeed.waiting deeds = none := by
      by_contra hne
      cases hthread.symm.trans (h.idle hne)
    have hnothing : HandedOn site.laboratory [] [.mark .abort] (system.control .abort).host := by
      refine ⟨h.requested.trans hnone, rfl, fun hne => absurd h.item hne, fun _ => ?_⟩
      show ExperimentHost.awaited site.laboratory (system.control .abort).host = []
      rw [ExperimentHost.awaited, show (system.control .abort).host.thread = .pausing e from hthread]
    have hlater := hnothing.threads hreach' n
    rw [hafter] at hrest' hopen' ⊢
    rw [hhistory]
    obtain ⟨hitem, hstarted⟩ := hlater.rested (hreach'.after _) hrest' hopen'
    refine ⟨hlater.requested.trans hnone.symm, fun hne => absurd hnone hne, hitem, ?_, ?_⟩
    · rw [handed_append, h.handed]
      exact (congrArg _ hlater.handed).trans (List.append_nil _)
    · rw [started_append, h.started]
      exact (congrArg _ hstarted).trans (List.append_nil _)

theorem pass (h : Kept site deeds notes system) (hactions : site.actions = [.start, .kick])
    (hreach : system.Reachable site) (hrest : system.Resting site) (hbetween : system.mission = .between)
    (hopen : system.host.controller.events.shutdown = false) (hturns : system.CarryOut site turns .pass)
    (hrest' : (system.after site turns).Resting site)
    (hopen' : (system.after site turns).host.controller.events.shutdown = false) :
    Kept site (.pass :: deeds) (notes ++ system.history site turns) (system.after site turns) := by
  obtain ⟨hhanded, -⟩ := handedOn_pass hactions hreach hrest hbetween hopen h.item h.requested (h.noRun hreach) hturns
  obtain ⟨hitem, hstarted⟩ := hhanded.rested (hreach.after turns) hrest' hopen'
  refine ⟨hhanded.requested, fun hne => absurd rfl hne, hitem, ?_, ?_⟩
  · rw [handed_append, h.handed, hhanded.handed]
    rfl
  · rw [started_append, h.started, hstarted, ← List.filterMap_append]
    rfl

end Kept

private theorem open_before {system : ExperimentSystem σ} (turns : List (Move σ))
    (h : (system.after site turns).host.controller.events.shutdown = false) :
    system.host.controller.events.shutdown = false := by
  cases hshut : system.host.controller.events.shutdown with
  | false => rfl
  | true => exact (leaves site hshut turns).1.symm.trans h

theorem Trial.kept (hactions : site.actions = [.start, .kick]) (world : σ) {deeds : List ExperimentDeed}
    {schedule : List (Move σ)} (trial : Trial site (initial world) deeds schedule)
    (hopen : ((initial world).after site schedule).host.controller.events.shutdown = false) :
    Kept site deeds ((initial world).history site schedule) ((initial world).after site schedule) := by
  induction trial with
  | start => exact ⟨rfl, fun _ => rfl, rfl, rfl, rfl⟩
  | @next deeds before turns operation trial hturns hrest' ih =>
    have hreach : ((initial world).after site before).Reachable site := ⟨world, before, rfl⟩
    obtain ⟨hrest, hbetween, hadmitted⟩ := trial.resting site (resting_initial site world) rfl rfl
    rw [after_append] at hrest' hopen ⊢
    rw [history_append]
    have hbefore := open_before turns hopen
    have hkept := ih hbefore
    cases operation with
    | request code => exact hkept.request hreach hrest hbefore hadmitted hturns
    | abort => exact hkept.abort hreach hrest hbefore hturns hrest' hopen
    | pass => exact hkept.pass hactions hreach hrest hbetween hbefore hturns hrest' hopen

/-- What comes of a code that a pass handed over: its calls begin with the one start of an experiment, or there are
none.  -/
private theorem calls_of_opening {code : UInt8} {notes : List (ExperimentNote σ)} {host : ExperimentHost σ}
    (hopening : Opening notes host) (hstarted : started notes = [code].filterMap site.laboratory.find?) :
    (site.laboratory.find? code = none → calls notes = []) ∧
      ∀ e, site.laboratory.find? code = some e →
        ∃ result rest, calls notes = .start e result :: rest ∧ rest.filterMap ExperimentCall.started? = [] := by
  rcases hopening with ⟨hcalls, -⟩ | ⟨e, result, rest, hcalls⟩
  · refine ⟨fun _ => hcalls, fun e hfind => ?_⟩
    rw [started_of_calls hcalls, List.filterMap_cons_some hfind] at hstarted
    cases hstarted
  · have hfirst : started notes = e :: rest.filterMap ExperimentCall.started? := by
      rw [started, hcalls]
      rfl
    rw [hfirst] at hstarted
    constructor
    · intro hfind
      rw [List.filterMap_cons_none hfind] at hstarted
      cases hstarted
    · intro e' hfind
      rw [List.filterMap_cons_some hfind, List.filterMap_nil, List.cons.injEq] at hstarted
      obtain ⟨rfl, hnone⟩ := hstarted
      exact ⟨result, rest, hcalls, hnone⟩

/-- Before a shutdown, when operations come one after another and the thread rests after each of them: what was handed
to the thread is, in order, what the operations say, and each of it has started the first experiment that is registered
for its code, once.  A request is accepted exactly if the thread is not in a run, and otherwise changes nothing.  A pass
hands over the last request that was accepted since the pass before; if nothing is registered for its code, no calls
come of it, and otherwise they begin with the one start of that experiment.  -/
theorem requests_are_kept (hactions : site.actions = [.start, .kick]) (world : σ) {deeds : List ExperimentDeed}
    {schedule : List (Move σ)} (trial : Trial site (initial world) deeds schedule)
    (hopen : ((initial world).after site schedule).host.controller.events.shutdown = false) :
    let system := (initial world).after site schedule
    let notes := (initial world).history site schedule
    handed notes = ExperimentDeed.due deeds ∧
      started notes = (ExperimentDeed.due deeds).filterMap site.laboratory.find? ∧
      (∀ code turns, system.CarryOut site turns (.request code) →
        (ExperimentOperation.request code).deed system.host.controller =
            .request code (!system.host.thread.inRun) ∧
          system.history site turns = [] ∧
          system.after site turns = if system.host.thread.inRun then system else system.control (.file code)) ∧
      ∀ turns, system.CarryOut site turns .pass → (system.after site turns).Resting site →
        (system.after site turns).host.controller.events.shutdown = false →
        let more := system.history site turns
        handed more = (ExperimentDeed.waiting deeds).toList ∧
          (ExperimentDeed.waiting deeds = none → started more = []) ∧
          ∀ code, ExperimentDeed.waiting deeds = some code →
            (site.laboratory.find? code = none → calls more = []) ∧
              ∀ e, site.laboratory.find? code = some e →
                ∃ result rest, calls more = .start e result :: rest ∧
                  rest.filterMap ExperimentCall.started? = [] := by
  intro system notes
  have hkept := trial.kept hactions world hopen
  have hreach : system.Reachable site := ⟨world, schedule, rfl⟩
  obtain ⟨hrest, hbetween, hadmitted⟩ := trial.resting site (resting_initial site world) rfl rfl
  have hrun : system.host.controller.inProgress = system.host.thread.inRun := by
    rcases Resting.place hreach hrest hopen with ⟨-, -, hprogress, hrun⟩ | ⟨e, -, hprogress, hrun⟩ <;>
      exact hprogress.trans hrun.symm
  refine ⟨hkept.handed, hkept.started, fun code turns hturns => ?_, fun turns hturns hrest' hopen' => ?_⟩
  · obtain ⟨hafter, hhistory⟩ := after_request site hrest hadmitted hturns
    rw [hrun] at hafter
    refine ⟨?_, hhistory, hafter⟩
    rw [ExperimentOperation.deed, ExperimentController.request_eq, hrun]
    cases system.host.thread.inRun <;> rfl
  · intro more
    obtain ⟨hhanded, hopening⟩ :=
      handedOn_pass hactions hreach hrest hbetween hopen hkept.item hkept.requested (hkept.noRun hreach) hturns
    obtain ⟨-, hstarted⟩ := hhanded.rested (hreach.after turns) hrest' hopen'
    refine ⟨hhanded.handed, fun hnone => ?_, fun code hcode => ?_⟩
    · rw [hnone] at hstarted
      exact hstarted
    · rw [hcode] at hstarted hopening
      exact calls_of_opening (hopening (Option.some_ne_none code)) hstarted

theorem requests_are_kept_when_replaced :
    handed ((initial ()).history patientSite ([.ask 3, .file 3] ++ [.ask 7, .file 7] ++
        (List.replicate 5 .mission ++ List.replicate 10 .thread))) = [7] ∧
      ∃ result rest, calls (((initial ()).after patientSite ([.ask 3, .file 3] ++ [.ask 7, .file 7])).history patientSite
          (List.replicate 5 .mission ++ List.replicate 10 .thread)) = .start patient result :: rest ∧
        rest.filterMap ExperimentCall.started? = [] := by
  have hfirst : Trial patientSite (initial ()) [.request 3 true] [.ask 3, .file 3] :=
    @Trial.next _ _ _ [] [] [.ask 3, .file 3] (.request 3) .start rfl rfl
  have hsecond : Trial patientSite (initial ()) [.request 7 true, .request 3 true]
      ([.ask 3, .file 3] ++ [.ask 7, .file 7]) :=
    .next (.request 7) hfirst rfl rfl
  have hpass : ((initial ()).after patientSite ([.ask 3, .file 3] ++ [.ask 7, .file 7])).CarryOut patientSite
      (List.replicate 5 .mission ++ List.replicate 10 .thread) .pass :=
    ⟨by simp [Move.isThread, Move.isMission], rfl, rfl⟩
  obtain ⟨hhanded, -⟩ := requests_are_kept rfl () (.next .pass hsecond hpass rfl) rfl
  obtain ⟨-, -, -, hlater⟩ := requests_are_kept rfl () hsecond rfl
  exact ⟨hhanded, ((hlater _ hpass rfl rfl).2.2 7 rfl).2 patient rfl⟩

end ExperimentSystem

end Spacecraft
