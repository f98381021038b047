import Mathlib.Data.List.Induction
import Spacecraft.Proofs.Clock.Run
import Spacecraft.Storage.Files

/-!
# A clock that several callers share

A call has two parts.  The first moves the counters under one lock and settles what is to be done about the new time;
the second does it, under another lock (`SharedClock.perform`).  Between its parts other calls may come in.  Times are
settled in order (`InOrder`), but the second parts may run in another order, and then an earlier time is announced and
saved after a later one (`times_go_back`).
-/

namespace Spacecraft

/-- The milliseconds to save, if the change is to be saved. -/
def Clock.Change.saved? (change : Clock.Change) : Option UInt64 :=
  if change.saves then some change.time.millis64 else none

private theorem Clock.Change.announcement_eq {change : Change} {point : TimePoint}
    (h : change.announcement? = some point) :
    point = .ofDuration change.time := by
  rw [announcement?, Option.ite_none_right_eq_some] at h
  exact (Option.some.inj h.2).symm

private theorem Clock.Change.saved_eq {change : Change} {saved : UInt64} (h : change.saved? = some saved) :
    saved = change.time.millis64 := by
  rw [saved?, Option.ite_none_right_eq_some] at h
  exact (Option.some.inj h.2).symm

/-- A change that the first part of a call has settled. -/
structure SettledChange (ι : Type) where
  caller : ι
  /-- How many changes were settled before. -/
  number : Nat
  change : Clock.Change

/-- A clock with its callers. -/
structure SharedClock (ι ν σ : Type) where
  host : HeardClock ν σ
  /-- How many changes have been settled. -/
  settled : Nat
  /-- The changes of calls that are between their two parts. -/
  waiting : List (SettledChange ι)
  /-- The changes that were carried out, latest first. -/
  carried : List (SettledChange ι)

/-- What can happen to a shared clock without interruption. -/
inductive ClockMove (ι ν : Type) where
  /-- The first part of an advance. -/
  | advance (caller : ι) (delta : Duration)
  /-- The first part of a jump. -/
  | set (caller : ι) (point : TimePoint)
  /-- The second part of a call. -/
  | finish (caller : ι)
  | listen (listener : ν)

namespace SharedClock

section Moves

variable {ι ν σ : Type} [DecidableEq ι] [FileStore σ]

/-- Nobody has called yet. -/
def ofClock (host : HeardClock ν σ) : SharedClock ι ν σ := ⟨host, 0, [], []⟩

/-- The caller is in the middle of a call. -/
def waits (caller : ι) (c : SharedClock ι ν σ) : Bool := c.waiting.any fun settled => settled.caller = caller

/-- The first part of a call ends: the counters have moved. -/
def settle (caller : ι) (change : Clock.Change) (later : Clock) (c : SharedClock ι ν σ) : SharedClock ι ν σ :=
  { c with
    host := { c.host with clock := later }
    settled := c.settled + 1
    waiting := ⟨caller, c.settled, change⟩ :: c.waiting }

/-- The second part of a call: what was settled is carried out. -/
def finish (settled : SettledChange ι) (c : SharedClock ι ν σ) : SharedClock ι ν σ :=
  { c with
    host := c.host.carryOut settled.change
    waiting := c.waiting.filter fun other => other.caller ≠ settled.caller
    carried := settled :: c.carried }

/-- The clock after a move.  A caller makes one call at a time. -/
def perform (move : ClockMove ι ν) (c : SharedClock ι ν σ) : SharedClock ι ν σ :=
  match move with
  | .advance caller delta =>
    if c.waits caller then c
    else
      match c.host.clock.advance delta with
      | (.error _, later) => { c with host := { c.host with clock := later } }
      | (.ok change, later) => c.settle caller change later
  | .set caller point =>
    if c.waits caller then c
    else
      match c.host.clock.set point with
      | (.error _, later) | (.ok none, later) => { c with host := { c.host with clock := later } }
      | (.ok (some change), later) => c.settle caller change later
  | .finish caller =>
    match c.waiting.find? fun settled => settled.caller = caller with
    | none => c
    | some settled => c.finish settled
  | .listen listener => { c with host := c.host.listen listener }

/-- The clock after moves in order. -/
def after (moves : List (ClockMove ι ν)) (c : SharedClock ι ν σ) : SharedClock ι ν σ :=
  moves.foldl (fun c move => c.perform move) c

/-! ### Calls without interruption -/

private theorem finish_settle {caller : ι} {c : SharedClock ι ν σ} (change : Clock.Change) (later : Clock) :
    ((c.settle caller change later).perform (.finish caller)).host =
      { c.host with clock := later }.carryOut change := by
  simp [settle, perform, finish]

/-- Without interruption the two parts of an advance are an advance, and those of a jump a jump. -/
theorem host_uninterrupted {caller : ι} {c : SharedClock ι ν σ} (h : c.waits caller = false) :
    (∀ delta, ((c.perform (.advance caller delta)).perform (.finish caller)).host = (c.host.advance delta).2) ∧
      ∀ point, ((c.perform (.set caller point)).perform (.finish caller)).host = (c.host.set point).2 := by
  have hnone : c.waiting.find? (fun settled => settled.caller = caller) = none := by
    rw [waits, List.any_eq_false] at h
    exact List.find?_eq_none.2 h
  have hnothing : ∀ host : HeardClock ν σ, ({ c with host }.perform (.finish caller)).host = host := fun host => by
    simp only [perform, hnone]
  refine ⟨fun delta => ?_, fun point => ?_⟩
  · rw [perform, h, if_neg Bool.false_ne_true, HeardClock.advance]
    rcases hadvance : c.host.clock.advance delta with ⟨e | change, later⟩
    · exact hnothing _
    · exact finish_settle change later
  · rw [perform, h, if_neg Bool.false_ne_true, HeardClock.set]
    rcases hset : c.host.clock.set point with ⟨e | _ | change, later⟩
    · exact hnothing _
    · exact hnothing _
    · exact finish_settle change later

end Moves

/-! ### Times are settled in order -/

section Order

variable {ι ν σ : Type}

/-- Changes that were settled one after the other have times in that order. -/
structure InOrder (c : SharedClock ι ν σ) : Prop where
  bound : ∀ a ∈ c.waiting ++ c.carried, a.number < c.settled ∧ a.change.time ≤ c.host.clock.current
  ordered : ∀ a ∈ c.waiting ++ c.carried, ∀ b ∈ c.waiting ++ c.carried, a.number < b.number →
    a.change.time ≤ b.change.time
  distinct : ∀ a ∈ c.waiting ++ c.carried, ∀ b ∈ c.waiting ++ c.carried, a.number = b.number → a.caller = b.caller
  /-- A caller carries its changes out one after the other. -/
  next : ∀ a ∈ c.waiting, ∀ b ∈ c.carried, b.caller = a.caller → b.number < a.number
  carried : c.carried.Pairwise fun later earlier => earlier.number < later.number ∨
    (later.number < earlier.number ∧ later.caller ≠ earlier.caller)

private theorem inOrder_ofClock (host : HeardClock ν σ) : InOrder (ofClock host : SharedClock ι ν σ) where
  bound _ ha := absurd ha List.not_mem_nil
  ordered _ ha := absurd ha List.not_mem_nil
  distinct _ ha := absurd ha List.not_mem_nil
  next _ ha := absurd ha List.not_mem_nil
  carried := List.Pairwise.nil

namespace InOrder

variable {c : SharedClock ι ν σ}

theorem settle (h : InOrder c) {caller : ι} {change : Clock.Change} {later : Clock}
    (step : Clock.Step c.host.clock change later) : InOrder (c.settle caller change later) := by
  obtain ⟨hle, htime, -⟩ := step.frame
  have hmem : ∀ a ∈ (c.settle caller change later).waiting ++ (c.settle caller change later).carried,
      a = ⟨caller, c.settled, change⟩ ∨ a ∈ c.waiting ++ c.carried := fun a ha => List.mem_cons.1 ha
  have hnew : ∀ a ∈ c.waiting ++ c.carried, a.number < c.settled ∧ a.change.time ≤ change.time := fun a ha =>
    ⟨(h.bound a ha).1, Nat.le_trans (h.bound a ha).2 (htime ▸ hle)⟩
  constructor
  case bound =>
    intro a ha
    rcases hmem a ha with rfl | ha
    · exact ⟨Nat.lt_succ_self _, Nat.le_of_eq (congrArg Duration.nanos htime.symm)⟩
    · exact ⟨Nat.lt_succ_of_lt (hnew a ha).1, Nat.le_trans (h.bound a ha).2 hle⟩
  case ordered =>
    intro a ha b hb hlt
    rcases hmem a ha with rfl | ha <;> rcases hmem b hb with rfl | hb
    · exact absurd hlt (Nat.lt_irrefl _)
    · exact absurd (hnew b hb).1 (Nat.lt_asymm hlt)
    · exact (hnew a ha).2
    · exact h.ordered a ha b hb hlt
  case distinct =>
    intro a ha b hb heq
    rcases hmem a ha with rfl | ha <;> rcases hmem b hb with rfl | hb
    · rfl
    · exact absurd heq.symm (Nat.ne_of_lt (hnew b hb).1)
    · exact absurd heq (Nat.ne_of_lt (hnew a ha).1)
    · exact h.distinct a ha b hb heq
  case next =>
    intro a ha b hb hcaller
    rcases List.mem_cons.1 ha with rfl | ha
    · exact (hnew b (List.mem_append_right _ hb)).1
    · exact h.next a ha b hb hcaller
  case carried => exact h.carried

/-- A call that leaves the range of time may move the counters in part. -/
theorem move (h : InOrder c) {later : Clock} (hle : c.host.clock.current ≤ later.current) :
    InOrder { c with host := { c.host with clock := later } } where
  bound a ha := ⟨(h.bound a ha).1, Nat.le_trans (h.bound a ha).2 hle⟩
  ordered := h.ordered
  distinct := h.distinct
  next := h.next
  carried := h.carried

end InOrder

end Order

variable {ι ν σ : Type} [DecidableEq ι] [FileStore σ]

theorem InOrder.finish {c : SharedClock ι ν σ} (h : InOrder c) {settled : SettledChange ι}
    (hmem : settled ∈ c.waiting) : InOrder (c.finish settled) := by
  have hall : ∀ a ∈ (c.finish settled).waiting ++ (c.finish settled).carried, a ∈ c.waiting ++ c.carried := by
    intro a ha
    rcases List.mem_append.1 ha with ha | ha
    · exact List.mem_append_left _ (List.mem_filter.1 ha).1
    · rcases List.mem_cons.1 ha with rfl | ha
      · exact List.mem_append_left _ hmem
      · exact List.mem_append_right _ ha
  constructor
  case bound => exact fun a ha => h.bound a (hall a ha)
  case ordered => exact fun a ha b hb => h.ordered a (hall a ha) b (hall b hb)
  case distinct => exact fun a ha b hb => h.distinct a (hall a ha) b (hall b hb)
  case next =>
    intro a ha b hb hcaller
    obtain ⟨ha, hother⟩ := List.mem_filter.1 ha
    rcases List.mem_cons.1 hb with rfl | hb
    · exact absurd hcaller.symm (of_decide_eq_true hother)
    · exact h.next a ha b hb hcaller
  case carried =>
    refine List.pairwise_cons.2 ⟨fun b hb => ?_, h.carried⟩
    have hcaller : b.caller = settled.caller → b.number < settled.number := h.next settled hmem b hb
    rcases Nat.lt_trichotomy b.number settled.number with hlt | heq | hgt
    · exact Or.inl hlt
    · exact Or.inl (hcaller (h.distinct b (List.mem_append_right _ hb) settled (List.mem_append_left _ hmem) heq))
    · exact Or.inr ⟨hgt, fun hsame => absurd (hcaller hsame.symm) (Nat.lt_asymm hgt)⟩

/-- What a move does: the counters move in part or not at all, somebody listens, a change is settled, or a settled
change is carried out.  -/
theorem perform_cases (move : ClockMove ι ν) (c : SharedClock ι ν σ) :
    (∃ later : Clock, c.host.clock.current ≤ later.current ∧
        c.perform move = { c with host := { c.host with clock := later } }) ∨
      (∃ listener, c.perform move = { c with host := c.host.listen listener }) ∨
      (∃ caller change later, Clock.Step c.host.clock change later ∧ c.perform move = c.settle caller change later) ∨
      ∃ settled ∈ c.waiting, c.perform move = c.finish settled := by
  have hsame : ∃ later : Clock, c.host.clock.current ≤ later.current ∧
      c = { c with host := { c.host with clock := later } } := ⟨c.host.clock, Nat.le_refl _, rfl⟩
  cases move with
  | advance caller delta =>
    rw [perform]
    split
    · exact Or.inl hsame
    · rcases hadvance : c.host.clock.advance delta with ⟨e | change, later⟩
      · exact Or.inl ⟨later, (Clock.BreaksOff.advance delta e hadvance).frame.1, rfl⟩
      · exact Or.inr (Or.inr (Or.inl ⟨caller, change, later, .advance delta hadvance, rfl⟩))
  | set caller point =>
    rw [perform]
    split
    · exact Or.inl hsame
    · rcases hset : c.host.clock.set point with ⟨e | _ | change, later⟩
      · exact Or.inl ⟨later, (Clock.BreaksOff.set point e hset).frame.1, rfl⟩
      · obtain ⟨-, rfl⟩ := Clock.set_eq_none_iff.1 hset
        exact Or.inl hsame
      · exact Or.inr (Or.inr (Or.inl ⟨caller, change, later, .set point hset, rfl⟩))
  | finish caller =>
    rw [perform]
    cases hfind : c.waiting.find? fun settled => settled.caller = caller with
    | none => exact Or.inl hsame
    | some settled => exact Or.inr (Or.inr (Or.inr ⟨settled, List.mem_of_find?_eq_some hfind, rfl⟩))
  | listen listener => exact Or.inr (Or.inl ⟨listener, rfl⟩)

/-- What has been done so far: the store has seen the saves in the order in which changes were carried out, and what
was heard are announcements in that order.  -/
structure Traced (start : σ) (c : SharedClock ι ν σ) : Prop where
  store : c.host.store = c.carried.foldr (fun settled store => settled.change.save store) start
  heard : (c.host.heard.map Prod.snd).Sublist (c.carried.filterMap fun settled => settled.change.announcement?)

theorem Traced.finish {start : σ} {c : SharedClock ι ν σ} (h : Traced start c) (settled : SettledChange ι) :
    Traced start (c.finish settled) where
  store := congrArg settled.change.save h.store
  heard := by
    show ((c.host.carryOut settled.change).heard.map Prod.snd).Sublist
      ((settled :: c.carried).filterMap fun settled => settled.change.announcement?)
    rw [HeardClock.heard_carryOut, List.filterMap_cons, Clock.Change.announcement?]
    cases settled.change.announces with
    | false => exact h.heard
    | true =>
      rw [if_pos rfl, if_pos rfl, HeardClock.told]
      cases c.host.listener with
      | none => exact h.heard.cons _
      | some listener => exact h.heard.cons_cons _

/-- Whatever the order of moves, times are settled in order, and what was done was done in the order in which changes
were carried out.  -/
private theorem invariant_after (config : MissionConfig) (store : σ) (moves : List (ClockMove ι ν)) :
    InOrder ((ofClock (.boot config store) : SharedClock ι ν σ).after moves) ∧
      Traced store ((ofClock (.boot config store) : SharedClock ι ν σ).after moves) := by
  induction moves using List.reverseRecOn with
  | nil => exact ⟨inOrder_ofClock _, rfl, List.Sublist.refl _⟩
  | append_singleton moves move ih =>
    obtain ⟨horder, htraced⟩ := ih
    rw [after, List.foldl_append, List.foldl_cons, List.foldl_nil, ← after]
    rcases perform_cases move ((ofClock (.boot config store) : SharedClock ι ν σ).after moves) with
      ⟨later, hle, heq⟩ | ⟨listener, heq⟩ | ⟨caller, change, later, step, heq⟩ | ⟨settled, hmem, heq⟩ <;> rw [heq]
    · exact ⟨horder.move hle, htraced.store, htraced.heard⟩
    · exact ⟨⟨horder.bound, horder.ordered, horder.distinct, horder.next, horder.carried⟩, htraced.store, htraced.heard⟩
    · exact ⟨horder.settle step, htraced.store, htraced.heard⟩
    · exact ⟨horder.finish hmem, htraced.finish settled⟩

/-- Whatever the order of moves: of two changes, the one that was settled first does not have the later time.  Changes
are announced and saved in the order in which they are carried out, and only changes of different callers are carried
out in another order than they were settled in.  If none are, the times that are announced never decrease within the
range of days, and those that are saved never do within 64 bits of milliseconds.  -/
theorem changes_in_order (config : MissionConfig) (store : σ) (moves : List (ClockMove ι ν)) :
    let c := (ofClock (.boot config store) : SharedClock ι ν σ).after moves
    c.host.store = c.carried.foldr (fun settled store => settled.change.save store) store ∧
      (c.host.heard.map Prod.snd).Sublist (c.carried.filterMap fun settled => settled.change.announcement?) ∧
      (c.carried.Pairwise fun later earlier =>
        (earlier.number < later.number ∧ earlier.change.time ≤ later.change.time) ∨
          (later.number < earlier.number ∧ later.change.time ≤ earlier.change.time ∧ later.caller ≠ earlier.caller)) ∧
      ((c.carried.Pairwise fun later earlier => earlier.number < later.number) →
        (c.host.clock.current.millis < 4294967296 * 86400000 →
          (c.host.heard.map Prod.snd).Pairwise fun later earlier => earlier.millis ≤ later.millis) ∧
        (c.host.clock.current.millis < UInt64.size →
          (c.carried.filterMap fun settled => settled.change.saved?).Pairwise fun later earlier =>
            earlier ≤ later)) := by
  intro c
  obtain ⟨horder, htraced⟩ : InOrder c ∧ Traced store c := invariant_after config store moves
  have hmem {a : SettledChange ι} (ha : a ∈ c.carried) : a ∈ c.waiting ++ c.carried := List.mem_append_right _ ha
  have hmillis {a : SettledChange ι} (ha : a ∈ c.carried) : a.change.time.millis ≤ c.host.clock.current.millis :=
    Duration.millis_mono (horder.bound a (hmem ha)).2
  refine ⟨htraced.store, htraced.heard, ?_, fun hnumbers => ⟨fun hrange => ?_, fun hrange => ?_⟩⟩
  · refine horder.carried.imp_of_mem fun hlater hearlier hcase => ?_
    refine hcase.imp (fun hlt => ?_) fun ⟨hlt, hcaller⟩ => ?_
    · exact ⟨hlt, horder.ordered _ (hmem hearlier) _ (hmem hlater) hlt⟩
    · exact ⟨hlt, horder.ordered _ (hmem hlater) _ (hmem hearlier) hlt, hcaller⟩
  · refine List.Pairwise.sublist htraced.heard (List.pairwise_filterMap.2 (hnumbers.imp_of_mem ?_))
    intro later earlier hlater hearlier hlt point hpoint point' hpoint'
    rw [Clock.Change.announcement_eq hpoint, Clock.Change.announcement_eq hpoint',
      TimePoint.millis_ofDuration (Nat.lt_of_le_of_lt (hmillis hlater) hrange),
      TimePoint.millis_ofDuration (Nat.lt_of_le_of_lt (hmillis hearlier) hrange)]
    exact Duration.millis_mono (horder.ordered _ (hmem hearlier) _ (hmem hlater) hlt)
  · refine List.pairwise_filterMap.2 (hnumbers.imp_of_mem ?_)
    intro later earlier hlater hearlier hlt saved hsaved saved' hsaved'
    rw [Clock.Change.saved_eq hsaved, Clock.Change.saved_eq hsaved', UInt64.le_iff_toNat_le, Duration.millis64,
      Duration.millis64, UInt64.toNat_ofNat_of_lt' (Nat.lt_of_le_of_lt (hmillis hlater) hrange),
      UInt64.toNat_ofNat_of_lt' (Nat.lt_of_le_of_lt (hmillis hearlier) hrange)]
    exact Duration.millis_mono (horder.ordered _ (hmem hearlier) _ (hmem hlater) hlt)

/-- Two overlapping advances that are carried out the other way round: the listener hears of 33:20 and then of 16:40,
and the copies go back from 2000 s to 1000 s.  And one caller alone, past the last time that 64 bits hold: the copies
start again from zero.  -/
theorem times_go_back :
    let span : Duration := .ofMillis 1000000
    let start : SharedClock Bool Unit Files := ofClock (.boot .standard .empty)
    let before := start.after [.listen (), .advance true span, .advance false span, .finish false]
    let later := before.after [.finish true]
    let last := start.after [.advance true (.ofMillis 18446744073709551615), .finish true]
    let beyond := last.after [.advance true span, .finish true]
    (later.host.heard.map Prod.snd = [⟨0, 0, 16, 40, 0⟩, ⟨0, 0, 33, 20, 0⟩] ∧
        TimeCopies.read before.host.store "/time0" = some 2000000 ∧
        TimeCopies.read later.host.store "/time0" = some 1000000) ∧
      TimeCopies.read last.host.store "/time0" = some 18446744073709551615 ∧
      TimeCopies.read beyond.host.store "/time0" = some 999999 := by
  decide +kernel

end SharedClock

end Spacecraft
