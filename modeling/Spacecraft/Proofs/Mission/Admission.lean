import Mathlib.Data.List.Induction
import Mathlib.Logic.Function.Iterate
import Spacecraft.Mission.Control

/-!
# Which passes are admitted

The mission thread takes its steps while operators suspend the loop, resume it, ask for single passes and shut it down
at any moment, and while ticks end (`LoopMove`).  Requests, shutdowns, admitted passes and passes that were run are
noted (`LoopNote`).  A request that is pending was made since the last pass that was admitted on one
(`HoldsRequests`), and while the loop is suspended only such a pass is admitted.  A blocked thread of a suspended loop
therefore answers a request by one pass and blocks again (`Stepping`).
-/

namespace Spacecraft

/-- What happens to the mission thread and its control. -/
inductive LoopMove where
  | suspend
  | resume
  | requestSingle
  | shutDown
  /-- The next step of the mission thread, unless it is blocked. -/
  | turn
  /-- The tick is over. -/
  | tick
deriving DecidableEq, Repr

/-- What is noted of a move. -/
inductive LoopNote where
  /-- A single pass was asked for. -/
  | requested
  | shutDown
  /-- A pass was admitted when the control stood like this. -/
  | admitted (control : LoopControl)
  /-- An admitted pass was run to its end. -/
  | ran
deriving DecidableEq, Repr

namespace LoopNote

/-- A pass was admitted. -/
def admits : LoopNote → Bool
  | admitted _ => true
  | requested | shutDown | ran => false

/-- A pass was admitted while the loop was suspended. -/
def admitsSuspended : LoopNote → Bool
  | admitted control => control.suspended
  | requested | shutDown | ran => false

/-- A pass was admitted that takes away the pending request. -/
def spends : LoopNote → Bool
  | admitted control => control.single
  | requested | shutDown | ran => false

end LoopNote

/-- The mission thread with its control and with the world that its passes change. -/
structure MissionSystem (ω : Type) where
  thread : MissionThread
  control : LoopControl
  world : ω

namespace MissionSystem

variable {ω : Type}

/-- The thread was just started and nothing was asked of it. -/
def initial (world : ω) : MissionSystem ω := ⟨.waiting, .initial, world⟩

/-- The system after a move. -/
def perform (pass : ω → ω) (move : LoopMove) (system : MissionSystem ω) : MissionSystem ω :=
  match move with
  | .suspend => { system with control := system.control.suspend }
  | .resume => { system with control := system.control.resume }
  | .requestSingle => { system with control := system.control.requestSingle }
  | .shutDown => { system with control := system.control.shutDown }
  | .turn =>
    match system.thread.step pass system.control system.world with
    | some (thread, control, world) => ⟨thread, control, world⟩
    | none => system
  | .tick => { system with thread := system.thread.tick }

/-- What is noted of a step of the thread. -/
def turnNote? (system : MissionSystem ω) : Option LoopNote :=
  match system.thread with
  | .waiting =>
    match system.control.verdict with
    | some (.pass, _) => some (.admitted system.control)
    | some (.stop, _) | none => none
  | .running => some .ran
  | .completing | .sleeping | .stopped => none

/-- What is noted of a move. -/
def noted (move : LoopMove) (system : MissionSystem ω) : List LoopNote :=
  match move with
  | .requestSingle => [.requested]
  | .shutDown => [.shutDown]
  | .turn => system.turnNote?.toList
  | .suspend | .resume | .tick => []

/-- The system after moves in order. -/
def after (pass : ω → ω) (moves : List LoopMove) (system : MissionSystem ω) : MissionSystem ω :=
  moves.foldl (fun system move => system.perform pass move) system

/-- What is noted of moves in order. -/
def history (pass : ω → ω) : List LoopMove → MissionSystem ω → List LoopNote
  | [], _ => []
  | move :: moves, system => system.noted move ++ history pass moves (system.perform pass move)

/-- The thread cannot go on by itself, but it has not stopped. -/
def Blocked (pass : ω → ω) (system : MissionSystem ω) : Prop :=
  system.thread ≠ .stopped ∧ system.thread.step pass system.control system.world = none

/-- The steps of the mission thread, the ends of its ticks among them, with what is noted of them. -/
inductive Turn (pass : ω → ω) : MissionSystem ω → List LoopNote → MissionSystem ω → Prop where
  | enter {control world} : control.shutdown = false → (control.single = true ∨ control.suspended = false) →
      Turn pass ⟨.waiting, control, world⟩ [.admitted control] ⟨.running, { control with single := false }, world⟩
  | stop {control world} : control.shutdown = true →
      Turn pass ⟨.waiting, control, world⟩ [] ⟨.stopped, control, world⟩
  | run {control world} : Turn pass ⟨.running, control, world⟩ [.ran] ⟨.completing, control, pass world⟩
  | complete {control world} : Turn pass ⟨.completing, control, world⟩ [] ⟨.sleeping, control.complete, world⟩
  | wake {control world} : Turn pass ⟨.sleeping, control, world⟩ [] ⟨.waiting, control, world⟩
  | rest {system} : Turn pass system [] system

variable (pass : ω → ω) (system : MissionSystem ω)

/-! ### Moves -/

/-- A waiting thread is told to run a pass, to stop, or nothing. -/
private theorem turn_waiting (control : LoopControl) (world : ω) :
    Turn pass ⟨.waiting, control, world⟩ (noted .turn ⟨.waiting, control, world⟩)
      (perform pass .turn ⟨.waiting, control, world⟩) := by
  obtain ⟨suspended, single, shutdown, passes⟩ := control
  cases shutdown with
  | true => exact .stop rfl
  | false =>
    cases single with
    | true => exact .enter rfl (Or.inl rfl)
    | false =>
      cases suspended with
      | true => exact .rest
      | false => exact .enter rfl (Or.inr rfl)

private theorem turn_perform_turn : Turn pass system (system.noted .turn) (system.perform pass .turn) := by
  obtain ⟨thread, control, world⟩ := system
  cases thread with
  | waiting => exact turn_waiting pass control world
  | running => exact .run
  | completing => exact .complete
  | sleeping =>
    cases hwakes : control.wakes with
    | true =>
      have hnext : perform pass .turn ⟨.sleeping, control, world⟩ = ⟨.waiting, control, world⟩ := by
        simp [perform, MissionThread.step, hwakes]
      rw [hnext]
      exact .wake
    | false =>
      have hnext : perform pass .turn ⟨.sleeping, control, world⟩ = ⟨.sleeping, control, world⟩ := by
        simp [perform, MissionThread.step, hwakes]
      rw [hnext]
      exact .rest
  | stopped => exact .rest

private theorem turn_perform_tick : Turn pass system (system.noted .tick) (system.perform pass .tick) := by
  obtain ⟨thread, control, world⟩ := system
  cases thread with
  | sleeping => exact .wake
  | waiting => exact .rest
  | running => exact .rest
  | completing => exact .rest
  | stopped => exact .rest

theorem after_concat (moves : List LoopMove) (move : LoopMove) :
    system.after pass (moves ++ [move]) = (system.after pass moves).perform pass move := by
  unfold after
  rw [List.foldl_append]
  rfl

theorem history_concat (moves : List LoopMove) (move : LoopMove) :
    system.history pass (moves ++ [move]) = system.history pass moves ++ (system.after pass moves).noted move := by
  induction moves generalizing system with
  | nil => exact List.append_nil _
  | cons first moves ih =>
    rw [List.cons_append, history, history, ih, List.append_assoc]
    rfl

/-- Nobody interrupts the thread: it goes on until it blocks. -/
theorem after_turns (n : Nat) :
    let (thread, control, world) := MissionThread.settle pass n system.thread system.control system.world
    system.after pass (List.replicate n .turn) = ⟨thread, control, world⟩ := by
  induction n generalizing system with
  | zero => rfl
  | succ n ih =>
    have hsplit : system.after pass (List.replicate (n + 1) .turn) =
        (system.perform pass .turn).after pass (List.replicate n .turn) := rfl
    rw [hsplit, ih, MissionThread.settle, perform]
    cases hstep : system.thread.step pass system.control system.world with
    | some next => rfl
    | none =>
      cases n with
      | zero => rfl
      | succ n =>
        simp only [MissionThread.settle, hstep]

/-! ### Requests -/

/-- A pending request was made since the last pass that was admitted on one, there were no fewer requests than such
passes, and all passes that were admitted while the loop was suspended are such passes. -/
structure HoldsRequests (notes : List LoopNote) (control : LoopControl) : Prop where
  pending : control.single = true → ∃ earlier between, notes = earlier ++ .requested :: between ∧
    ∀ n ∈ between, n.spends = false
  spent_le : notes.countP LoopNote.spends + control.single.toNat ≤ notes.count .requested
  spends_of_suspended : ∀ n ∈ notes, n.admitsSuspended = true → n.spends = true

variable {pass system} {notes : List LoopNote} {control : LoopControl}

/-- What is noted of a move that neither asks for a pass nor admits one, and what it does to the control, leave the
requests alone. -/
theorem HoldsRequests.frame (h : HoldsRequests notes control) {more : List LoopNote} {next : LoopControl}
    (hsingle : next.single = control.single) (hmore : more = [] ∨ more = [.shutDown] ∨ more = [.ran]) :
    HoldsRequests (notes ++ more) next where
  pending hnext := by
    obtain ⟨earlier, between, hnotes, hbetween⟩ := h.pending (hsingle.symm.trans hnext)
    refine ⟨earlier, between ++ more, by rw [hnotes, List.append_assoc, List.cons_append], ?_⟩
    rw [List.forall_mem_append]
    exact ⟨hbetween, by rcases hmore with rfl | rfl | rfl <;> simp [LoopNote.spends]⟩
  spent_le := by
    have hle := h.spent_le
    rw [hsingle, List.countP_append, List.count_append]
    rcases hmore with rfl | rfl | rfl <;> simpa [LoopNote.spends] using hle
  spends_of_suspended := by
    rw [List.forall_mem_append]
    exact ⟨h.spends_of_suspended, by rcases hmore with rfl | rfl | rfl <;> simp [LoopNote.admitsSuspended]⟩

theorem HoldsRequests.request (h : HoldsRequests notes control) :
    HoldsRequests (notes ++ [.requested]) control.requestSingle where
  pending _ := ⟨notes, [], rfl, by simp⟩
  spent_le := by
    have hle := h.spent_le
    rw [List.countP_append, List.count_append]
    show _ + 0 + 1 ≤ _ + 1
    omega
  spends_of_suspended := by
    rw [List.forall_mem_append]
    exact ⟨h.spends_of_suspended, by simp [LoopNote.admitsSuspended]⟩

/-- While the loop is suspended, a pass is admitted on a request only. -/
private theorem HoldsRequests.enter (h : HoldsRequests notes control)
    (hmay : control.single = true ∨ control.suspended = false) :
    HoldsRequests (notes ++ [.admitted control]) { control with single := false } where
  pending hsingle := Bool.noConfusion hsingle
  spent_le := by
    have hle := h.spent_le
    rw [List.countP_append, List.count_append]
    show _ + List.countP _ [_] + 0 ≤ _ + 0
    rw [List.countP_singleton]
    cases hsingle : control.single <;> simp [LoopNote.spends, hsingle] at hle ⊢ <;> omega
  spends_of_suspended := by
    rw [List.forall_mem_append]
    refine ⟨h.spends_of_suspended, ?_⟩
    rw [List.forall_mem_singleton]
    intro hsuspended
    rcases hmay with hsingle | hresumed
    · exact hsingle
    · exact absurd (hsuspended.symm.trans hresumed) (Bool.noConfusion)

private theorem Turn.holdsRequests {later : MissionSystem ω} {more : List LoopNote} (turn : Turn pass system more later)
    (h : HoldsRequests notes system.control) : HoldsRequests (notes ++ more) later.control := by
  cases turn with
  | enter hopen hmay => exact h.enter hmay
  | run => exact h.frame rfl (Or.inr (Or.inr rfl))
  | stop | complete | wake | rest => exact h.frame rfl (Or.inl rfl)

private theorem holdsRequests_perform (h : HoldsRequests notes system.control) (move : LoopMove) :
    HoldsRequests (notes ++ system.noted move) (system.perform pass move).control := by
  cases move with
  | suspend => exact h.frame rfl (Or.inl rfl)
  | resume => exact h.frame rfl (Or.inl rfl)
  | requestSingle => exact h.request
  | shutDown => exact h.frame rfl (Or.inr (Or.inl rfl))
  | turn => exact (turn_perform_turn pass system).holdsRequests h
  | tick => exact (turn_perform_tick pass system).holdsRequests h

private theorem holdsRequests_after (world : ω) (moves : List LoopMove) :
    HoldsRequests ((initial world).history pass moves) ((initial world).after pass moves).control := by
  induction moves using List.reverseRecOn with
  | nil => exact ⟨Bool.noConfusion, Nat.le_refl _, by simp [history]⟩
  | append_singleton moves move ih =>
    rw [history_concat, after_concat]
    exact holdsRequests_perform ih move

/-! ### Counts -/

/-- Every admitted pass is run and every pass that was run is counted, up to the one that the thread is at; and a
shutdown is remembered. -/
structure Counts (pass : ω → ω) (world : ω) (notes : List LoopNote) (system : MissionSystem ω) : Prop where
  admitted : notes.countP LoopNote.admits = notes.count .ran + if system.thread = .running then 1 else 0
  ran : notes.count .ran = system.control.passes + if system.thread = .completing then 1 else 0
  world : system.world = pass^[notes.count .ran] world
  shutdown : .shutDown ∈ notes ↔ system.control.shutdown = true

private theorem counts_initial (world : ω) : Counts pass world [] (initial world) :=
  ⟨rfl, rfl, rfl, iff_of_false List.not_mem_nil Bool.noConfusion⟩

private theorem Turn.counts {world : ω} {later : MissionSystem ω} {more : List LoopNote}
    (turn : Turn pass system more later)
    (h : Counts pass world notes system) : Counts pass world (notes ++ more) later := by
  obtain ⟨hadmitted, hran, hworld, hshutdown⟩ := h
  cases turn with
  | enter hopen hmay =>
    constructor
    · rw [List.countP_append, List.count_append, hadmitted]
      rfl
    · rw [List.count_append, hran]
      rfl
    · rw [List.count_append, hworld]
      rfl
    · rw [List.mem_append, hshutdown]
      simp
  | run =>
    constructor
    · rw [List.countP_append, List.count_append, hadmitted]
      rfl
    · rw [List.count_append, hran]
      rfl
    · rw [List.count_append]
      show pass _ = pass^[notes.count .ran + 1] world
      rw [Function.iterate_succ_apply']
      exact congrArg pass hworld
    · rw [List.mem_append, hshutdown]
      simp
  | stop | complete | wake | rest =>
    rw [List.append_nil]
    exact ⟨hadmitted, hran, hworld, hshutdown⟩

private theorem counts_perform {world : ω} (h : Counts pass world notes system) (move : LoopMove) :
    Counts pass world (notes ++ system.noted move) (system.perform pass move) := by
  cases move with
  | suspend =>
    rw [noted, List.append_nil]
    exact ⟨h.admitted, h.ran, h.world, h.shutdown⟩
  | resume =>
    rw [noted, List.append_nil]
    exact ⟨h.admitted, h.ran, h.world, h.shutdown⟩
  | requestSingle =>
    constructor
    · rw [noted, List.countP_append, List.count_append, h.admitted]
      rfl
    · rw [noted, List.count_append, h.ran]
      rfl
    · rw [noted, List.count_append]
      exact h.world
    · rw [noted, List.mem_append, h.shutdown]
      simp [perform, LoopControl.requestSingle]
  | shutDown =>
    constructor
    · rw [noted, List.countP_append, List.count_append, h.admitted]
      rfl
    · rw [noted, List.count_append, h.ran]
      rfl
    · rw [noted, List.count_append]
      exact h.world
    · exact iff_of_true (List.mem_append_right _ (List.mem_singleton_self _)) rfl
  | turn => exact (turn_perform_turn pass system).counts h
  | tick => exact (turn_perform_tick pass system).counts h

private theorem counts_after (world : ω) (moves : List LoopMove) :
    Counts pass world ((initial world).history pass moves) ((initial world).after pass moves) := by
  induction moves using List.reverseRecOn with
  | nil => exact counts_initial world
  | append_singleton moves move ih =>
    rw [history_concat, after_concat]
    exact counts_perform ih move

/-! ### One pass at a time -/

/-- A suspended loop that was not shut down; a request can only be pending before the thread has taken it up. -/
structure Stepping (system : MissionSystem ω) : Prop where
  suspended : system.control.suspended = true
  notShutDown : system.control.shutdown = false
  running : system.thread ≠ .stopped
  takenUp : system.thread ≠ .waiting → system.control.single = false

/-- The steps that the thread of a suspended loop takes before it blocks. -/
def turnsLeft (system : MissionSystem ω) : Nat :=
  match system.thread with
  | .waiting => if system.control.single then 4 else 0
  | .running => 3
  | .completing => 2
  | .sleeping => 1
  | .stopped => 0

private theorem turnsLeft_le (system : MissionSystem ω) : system.turnsLeft ≤ 4 := by
  unfold turnsLeft
  split
  · split
    · exact Nat.le_refl 4
    · exact Nat.zero_le 4
  · exact Nat.le_succ 3
  · exact Nat.le_add_left 2 2
  · exact Nat.le_add_left 1 3
  · exact Nat.zero_le 4

/-- A pass that was asked for is admitted once. -/
private theorem Turn.stepping {later : MissionSystem ω} {more : List LoopNote} (turn : Turn pass system more later)
    (h : system.Stepping) : later.Stepping ∧ later.turnsLeft ≤ system.turnsLeft ∧
      more.countP LoopNote.admits + later.control.single.toNat = system.control.single.toNat := by
  obtain ⟨hsuspended, hopen, hrunning, htaken⟩ := h
  cases turn with
  | enter hopen hmay =>
    have hsingle := hmay.resolve_right fun hresumed => Bool.noConfusion (hsuspended.symm.trans hresumed)
    refine ⟨⟨hsuspended, hopen, MissionThread.noConfusion, fun _ => rfl⟩, ?_, ?_⟩
    · simp [turnsLeft, hsingle]
    · simp [LoopNote.admits, hsingle]
  | stop hshutdown => exact absurd (hshutdown.symm.trans hopen) Bool.noConfusion
  | run =>
    have hsingle := htaken MissionThread.noConfusion
    exact ⟨⟨hsuspended, hopen, MissionThread.noConfusion, fun _ => hsingle⟩, Nat.le_succ 2, Nat.zero_add _⟩
  | complete =>
    have hsingle := htaken MissionThread.noConfusion
    exact ⟨⟨hsuspended, hopen, MissionThread.noConfusion, fun _ => hsingle⟩, Nat.le_succ 1, Nat.zero_add _⟩
  | @wake control world =>
    have hsingle : control.single = false := htaken MissionThread.noConfusion
    refine ⟨⟨hsuspended, hopen, MissionThread.noConfusion, fun hne => absurd rfl hne⟩, ?_, Nat.zero_add _⟩
    show (if control.single then 4 else 0) ≤ 1
    rw [hsingle]
    exact Nat.zero_le 1
  | rest => exact ⟨⟨hsuspended, hopen, hrunning, htaken⟩, Nat.le_refl _, Nat.zero_add _⟩

/-- A step that is left is taken. -/
private theorem Stepping.turnsLeft_turn (h : system.Stepping) :
    (system.perform pass .turn).turnsLeft = system.turnsLeft - 1 := by
  obtain ⟨thread, ⟨suspended, single, shutdown, passes⟩, world⟩ := system
  obtain ⟨rfl, rfl, hrunning, htaken⟩ := h
  cases thread with
  | waiting => cases single <;> rfl
  | running => rfl
  | completing => rfl
  | sleeping =>
    obtain rfl : single = false := htaken MissionThread.noConfusion
    rfl
  | stopped => exact absurd rfl hrunning

/-- The thread of a suspended loop blocks exactly where it has no steps left. -/
private theorem Stepping.blocked_iff (h : system.Stepping) : system.Blocked pass ↔ system.turnsLeft = 0 := by
  obtain ⟨thread, ⟨suspended, single, shutdown, passes⟩, world⟩ := system
  obtain ⟨rfl, rfl, hrunning, htaken⟩ := h
  cases thread with
  | waiting => cases single <;> simp [Blocked, MissionThread.step, LoopControl.verdict, turnsLeft]
  | running => simp [Blocked, MissionThread.step, turnsLeft]
  | completing => simp [Blocked, MissionThread.step, turnsLeft]
  | sleeping => simp [Blocked, MissionThread.step, LoopControl.wakes, turnsLeft]
  | stopped => exact absurd rfl hrunning

theorem Stepping.after (pass : ω → ω) (h : system.Stepping) {moves : List LoopMove}
    (hmoves : ∀ move ∈ moves, move = .turn ∨ move = .tick) :
    (system.after pass moves).Stepping ∧
      (system.after pass moves).turnsLeft ≤ system.turnsLeft - moves.count .turn ∧
      (system.history pass moves).countP LoopNote.admits + (system.after pass moves).control.single.toNat =
        system.control.single.toNat := by
  induction moves generalizing system with
  | nil => exact ⟨h, Nat.le_refl _, Nat.zero_add _⟩
  | cons move moves ih =>
    obtain ⟨hmove, hothers⟩ := List.forall_mem_cons.1 hmoves
    rw [history, List.countP_append]
    rcases hmove with rfl | rfl
    · obtain ⟨hnext, -, hadmits⟩ := (turn_perform_turn pass system).stepping h
      obtain ⟨hlater, hleft, hrest⟩ := ih hnext hothers
      refine ⟨hlater, ?_, ?_⟩
      · rw [h.turnsLeft_turn] at hleft
        rw [List.count_cons_self]
        show ((system.perform pass .turn).after pass moves).turnsLeft ≤ _
        omega
      · show _ + ((system.perform pass .turn).after pass moves).control.single.toNat = _
        omega
    · obtain ⟨hnext, hle, hadmits⟩ := (turn_perform_tick pass system).stepping h
      obtain ⟨hlater, hleft, hrest⟩ := ih hnext hothers
      refine ⟨hlater, ?_, ?_⟩
      · rw [List.count_cons_of_ne (by decide)]
        show ((system.perform pass .tick).after pass moves).turnsLeft ≤ _
        omega
      · show _ + ((system.perform pass .tick).after pass moves).control.single.toNat = _
        omega

/-- A thread that blocks while the loop is suspended waits for a pass, and no request is pending. -/
theorem Blocked.waits (h : system.Blocked pass) (hsuspended : system.control.suspended = true) :
    system.thread = .waiting ∧ system.control.single = false ∧ system.control.shutdown = false := by
  obtain ⟨thread, ⟨suspended, single, shutdown, passes⟩, world⟩ := system
  obtain ⟨hrunning, hstep⟩ := h
  obtain rfl : suspended = true := hsuspended
  cases thread with
  | waiting => cases single <;> cases shutdown <;> simp_all [MissionThread.step, LoopControl.verdict]
  | running => cases hstep
  | completing => cases hstep
  | sleeping => simp [MissionThread.step, LoopControl.wakes] at hstep
  | stopped => exact absurd rfl hrunning

/-- A pass is admitted only by a step of a waiting thread, and the admission takes a pending request away. -/
private theorem admitted_cases (pass : ω → ω) {move : LoopMove} (h : .admitted control ∈ system.noted move) :
    control = system.control ∧ control.shutdown = false ∧ (control.single = true ∨ control.suspended = false) ∧
      (system.perform pass move).control = { control with single := false } := by
  have hturn {more : List LoopNote} {later : MissionSystem ω} (turn : Turn pass system more later)
      (hmem : .admitted control ∈ more) : control = system.control ∧ control.shutdown = false ∧
        (control.single = true ∨ control.suspended = false) ∧ later.control = { control with single := false } := by
    cases turn with
    | enter hopen hmay =>
      cases List.mem_singleton.1 hmem
      exact ⟨rfl, hopen, hmay, rfl⟩
    | run => cases List.mem_singleton.1 hmem
    | stop | complete | wake | rest => cases hmem
  cases move with
  | turn => exact hturn (turn_perform_turn pass system) h
  | requestSingle => cases List.mem_singleton.1 h
  | shutDown => cases List.mem_singleton.1 h
  | suspend | resume | tick => cases h

/-- Whatever the order of the steps of the mission thread and of the calls of the operators.  No pass is admitted after
a shutdown.  An admission leaves the loop suspended or not as it was; if it was, the admission takes away a request that
was made since the last admission that took one away, so that no more passes are admitted while the loop is suspended
than were asked for.  Every admitted pass is run, and the counter of passes tells how many were, but for the one that
the thread is at.  And if the thread is blocked while the loop is suspended and one pass is asked for, then one pass at
most is admitted by the thread's own steps and ticks, and after four steps one was, the loop is still suspended and the
thread blocked again. -/
theorem passes_admitted_as_asked (pass : ω → ω) (world : ω) (moves : List LoopMove) :
    let notes := (initial world).history pass moves
    let system := (initial world).after pass moves
    (∀ move control, .admitted control ∈ system.noted move →
      let next := system.perform pass move
      .shutDown ∉ notes ∧ next.control.suspended = system.control.suspended ∧
        (system.control.suspended = true →
          system.control.single = true ∧ next.control.single = false ∧
            ∃ earlier between, notes = earlier ++ .requested :: between ∧ ∀ n ∈ between, n.spends = false)) ∧
      notes.countP LoopNote.admitsSuspended ≤ notes.count .requested ∧
      notes.countP LoopNote.admits = notes.count .ran + (if system.thread = .running then 1 else 0) ∧
      notes.count .ran = system.control.passes + (if system.thread = .completing then 1 else 0) ∧
      system.world = pass^[notes.count .ran] world ∧
      (system.Blocked pass → system.control.suspended = true →
        ∀ later, (∀ move ∈ later, move = .turn ∨ move = .tick) →
          let asked := system.perform pass .requestSingle
          let next := asked.after pass later
          let admitted := (asked.history pass later).countP LoopNote.admits
          next.control.suspended = true ∧ admitted ≤ 1 ∧
            (4 ≤ later.count .turn → admitted = 1 ∧ next.Blocked pass)) := by
  intro notes system
  have hrequests : HoldsRequests notes system.control := holdsRequests_after world moves
  have hcounts : Counts pass world notes system := counts_after world moves
  refine ⟨?_, ?_, hcounts.admitted, hcounts.ran, hcounts.world, ?_⟩
  · intro move control hmem next
    obtain ⟨rfl, hopen, hmay, hnext⟩ := admitted_cases pass hmem
    have hshutdown : .shutDown ∉ notes := by
      rw [hcounts.shutdown, hopen]
      exact Bool.false_ne_true
    have hkept : next.control.suspended = system.control.suspended := by
      show (system.perform pass move).control.suspended = _
      rw [hnext]
    refine ⟨hshutdown, hkept, fun hsuspended => ?_⟩
    have hsingle := hmay.resolve_right fun hresumed => Bool.noConfusion (hsuspended.symm.trans hresumed)
    exact ⟨hsingle, congrArg LoopControl.single hnext, hrequests.pending hsingle⟩
  · calc notes.countP LoopNote.admitsSuspended
        ≤ notes.countP LoopNote.spends := List.countP_mono_left hrequests.spends_of_suspended
      _ ≤ notes.count .requested := Nat.le_trans (Nat.le_add_right _ _) hrequests.spent_le
  · intro hblocked hsuspended later hlater asked next admitted
    obtain ⟨hwaiting, -, hopen⟩ := hblocked.waits hsuspended
    have hasked : asked.Stepping :=
      ⟨hsuspended, hopen, hblocked.1, fun hne => absurd hwaiting hne⟩
    obtain ⟨hnext, hleft, hadmits⟩ := hasked.after pass hlater
    have hone : admitted + next.control.single.toNat = 1 := hadmits
    refine ⟨hnext.suspended, Nat.le_of_add_right_le (Nat.le_of_eq hone), fun hturns => ?_⟩
    have hfour := asked.turnsLeft_le
    have hzero : next.turnsLeft = 0 := Nat.le_zero.1 (Nat.le_trans hleft (by omega))
    have hagain : next.Blocked pass := hnext.blocked_iff.2 hzero
    have hsingle := (hagain.waits hnext.suspended).2.1
    rw [hsingle] at hone
    exact ⟨hone, hagain⟩

end MissionSystem

end Spacecraft
