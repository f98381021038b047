import Spacecraft.Proofs.Clock.Run
import Spacecraft.Storage.Files

/-!
# What is left of the time after a restart

A save writes three copies of the time, and the vote at the next boot needs two of them.  So one copy may refuse its
writes, another one at every save: each save then leaves two good copies already at its first try (`recover_save`), and
what the copies vote for stays the time of the last save.  The counters bound how long ago that was.
-/

namespace Spacecraft

namespace TimeCopies

/-- No more than one copy refuses to be written. -/
def OneRefusing (files : Files) : Prop := paths.count files.refuses ≤ 1

instance (files : Files) : Decidable (OneRefusing files) := inferInstanceAs (Decidable (_ ≤ _))

/-- The content of the copies stays, and no more than one of them refuses to be written from now on. -/
def FailuresMove (files files' : Files) : Prop :=
  (∀ path ∈ paths.toList, files'.find? path = files.find? path) ∧ OneRefusing files'

instance (files files' : Files) : Decidable (FailuresMove files files') := inferInstanceAs (Decidable (_ ∧ _))

variable {files files' : Files}

/-! ### Saving -/

private theorem writeAll_refuses (content : Bytes) (names : List String) (files : Files) :
    (writeAll content names files).2.refuses = files.refuses := by
  induction names generalizing files with
  | nil => rfl
  | cons path rest ih => exact (ih _).trans (files.refuses_write path content)

/-- The number of failed writes is that of the paths that refuse. -/
private theorem writeAll_errors (content : Bytes) (names : List String) (files : Files) :
    (writeAll content names files).1 = names.countP files.refuses := by
  induction names generalizing files with
  | nil => rfl
  | cons path rest ih =>
    have hrest := ih (files.write path content).2
    rw [Files.refuses_write] at hrest
    show (writeAll content rest (files.write path content).2).1 +
      (if (files.write path content).1.toBool then 0 else 1) = _
    rw [hrest, Files.toBool_write, List.countP_cons]
    cases files.refuses path <;> rfl

/-- Every path that does not refuse gets the content, and no other file changes. -/
private theorem find?_writeAll (content : Bytes) (names : List String) (files : Files) (other : String) :
    (writeAll content names files).2.find? other =
      if other ∈ names ∧ files.refuses other = false then some content else files.find? other := by
  induction names generalizing files with
  | nil => simp [writeAll]
  | cons path rest ih =>
    have hrest := ih (files.write path content).2
    rw [Files.refuses_write, Files.find?_write] at hrest
    show (writeAll content rest (files.write path content).2).2.find? other = _
    rw [hrest]
    by_cases ho : other = path
    · -- The rest may name the path again; it then gets the same content once more.
      subst ho
      cases files.refuses other <;> simp
    · simp [ho]

/-- With no more than one copy refusing, the first try of a save is the last. -/
private theorem save_eq_writeAll (h : OneRefusing files) (time : Duration) :
    save time files = (writeAll (content time) paths.toList files).2 := by
  have herrors : (writeAll (content time) paths.toList files).1 ≤ 1 := by
    rw [writeAll_errors]
    exact h
  unfold save attempts attempt
  exact if_pos herrors

theorem OneRefusing.save (h : OneRefusing files) (time : Duration) : OneRefusing (save time files) := by
  unfold OneRefusing
  rw [save_eq_writeAll h, writeAll_refuses]
  exact h

/-! ### Recovering -/

theorem read_congr {path : String} (h : files'.find? path = files.find? path) :
    read files' path = read files path := by
  have hfile : FileStore.read files' path = FileStore.read files path := by
    show Files.read files' path = Files.read files path
    rw [Files.read, h, Files.read]
  rw [read, read, FileStore.readExact, hfile, FileStore.readExact]

/-- The vote depends on nothing but the three copies. -/
theorem recover_congr (h : ∀ path ∈ paths.toList, files'.find? path = files.find? path) :
    recover files' = recover files := by
  unfold recover
  rw [Triple.map_congr fun path hmem => congrArg (·.getD 0) (read_congr (h path hmem))]

theorem read_content {path : String} {time : Duration} (h : files.find? path = some (content time)) :
    read files path = some time.millis64 := by
  have hfile : FileStore.read files path = .ok (content time) := by
    show Files.read files path = _
    rw [Files.read, h]
  have hlen : (content time).length = 8 := LittleEndian.length_encode 8 _
  have hdecode : LittleEndian.decode (content time) = time.millis64.toNat := by
    rw [content, LittleEndian.decode_encode]
    exact Nat.mod_eq_of_lt time.millis64.toNat_lt
  rw [read, FileStore.readExact, hfile]
  simp only [hlen, Nat.lt_irrefl, if_false, List.take_of_length_le (Nat.le_of_eq hlen), hdecode, UInt64.ofNat_toNat]

/-- What a save leaves with no more than one copy refusing is recovered at the next boot, in 64 bits. -/
theorem recover_save_millis64 (h : OneRefusing files) (time : Duration) :
    recover (save time files) = .ofMillis time.millis64 := by
  have hgood : ∀ path ∈ paths.toList, (!files.refuses path) = true →
      decide ((read (save time files) path).getD 0 = time.millis64) = true := by
    intro path hmem hpath
    rw [Bool.not_eq_true'] at hpath
    have hfind : (save time files).find? path = some (content time) := by
      rw [save_eq_writeAll h, find?_writeAll, if_pos ⟨hmem, hpath⟩]
    rw [read_content hfind]
    exact decide_eq_true rfl
  have htwo : 2 ≤ paths.toList.countP (fun path => !files.refuses path) := by
    -- Of the three copies at most one refuses.
    have hsum := List.length_eq_countP_add_countP files.refuses (l := paths.toList)
    have hone : paths.toList.countP files.refuses ≤ 1 := h
    simp only [Bool.not_eq_true, Bool.decide_eq_false] at hsum
    change 3 = _ at hsum
    omega
  have hvote : (paths.map fun path => (read (save time files) path).getD 0).majority? = some time.millis64 := by
    rw [Triple.majority?_eq_some_iff]
    exact Nat.le_trans htwo (List.countP_mono_left hgood)
  rw [recover, vote, hvote]
  rfl

/-- A time that fits into 64 bits comes back in whole milliseconds. -/
theorem recover_save (h : OneRefusing files) {time : Duration} (hrange : time.millis < UInt64.size) :
    recover (save time files) = time.wholeMillis := by
  rw [recover_save_millis64 h, Duration.ofMillis_millis64 hrange]

end TimeCopies

/-- Cut to whole milliseconds, the moment that a counter measures from lies less than a millisecond further back. -/
theorem Clock.Measures.wholeMillis {moment counter now period : Duration} (h : Measures moment counter now)
    (hle : counter ≤ period) :
    moment.wholeMillis ≤ now ∧ (now - moment.wholeMillis).nanos < period.nanos + Duration.millisecond.nanos := by
  have hwhole := Duration.le_def.1 moment.wholeMillis_le
  have hcut := moment.lt_wholeMillis
  refine ⟨Nat.le_trans hwhole h.moment_le, ?_⟩
  unfold Measures at h
  rw [Duration.le_def] at hle
  rw [Duration.sub_nanos]
  omega

namespace HeardClock

open TimeCopies

variable {ν : Type} {start : Duration} {changes : List Clock.Change} {c : HeardClock ν Files}

/-- The copies vote for the time of the last save, and no more than one of them refuses to be written. -/
structure Durable (start : Duration) (changes : List Clock.Change) (c : HeardClock ν Files) : Prop where
  oneRefusing : OneRefusing c.store
  recovered : c.clock.current.millis < UInt64.size →
    recover c.store = (Clock.Change.lastTime (·.saves) start changes).wholeMillis

private theorem durable_boot {config : MissionConfig} {files : Files} (h : OneRefusing files) :
    Durable (recover files) [] (boot config files : HeardClock ν Files) where
  oneRefusing := h
  recovered := fun _ => (Duration.wholeMillis_ofMillis _).symm

theorem Durable.carryOut (h : Durable start changes c) {change : Clock.Change} {later : Clock}
    (step : Clock.Step c.clock change later) :
    Durable start (change :: changes) ({ c with clock := later }.carryOut change) := by
  obtain ⟨hle, htime, -, -⟩ := step.frame
  unfold HeardClock.carryOut Clock.Change.save
  cases hsaves : change.saves with
  | true =>
    refine ⟨h.oneRefusing.save _, fun hrange => ?_⟩
    rw [Clock.Change.lastTime_cons, hsaves]
    change later.current.millis < UInt64.size at hrange
    rw [htime] at hrange
    exact recover_save h.oneRefusing hrange
  | false =>
    refine ⟨h.oneRefusing, fun hrange => ?_⟩
    rw [Clock.Change.lastTime_cons, hsaves]
    exact h.recovered (Nat.lt_of_le_of_lt (Duration.millis_mono hle) hrange)

theorem Durable.disturb (h : Durable start changes c) {files : Files} (hmove : FailuresMove c.store files) :
    Durable start changes { c with store := files } where
  oneRefusing := hmove.2
  recovered := fun hrange => (recover_congr hmove.1).trans (h.recovered hrange)

/-- A run of a clock from its boot whose calls stay in the range of time, and in which no more than one copy of the time
refuses to be written at any time.  What the next boot recovers is the time of the last save cut to whole milliseconds,
and the time of this boot if nothing was saved.  It is not ahead of the time, and behind it by less than the save period
and a millisecond.  A jump that is accepted is a save, and so is an advance to more than the save period after the last
save. -/
theorem recovers_last_save {config : MissionConfig} {files : Files} (hone : OneRefusing files)
    (run : Run .inRange FailuresMove (boot config files) changes c) (hrange : c.clock.current.millis < UInt64.size) :
    let saved := Clock.Change.lastTime (·.saves) (recover files) changes
    let savePeriod := config.clockSavePeriod
    recover c.store =
      ((changes.find? (·.saves)).map fun change => change.time.wholeMillis).getD (recover files) ∧
    recover c.store ≤ c.clock.current ∧
    (c.clock.current - recover c.store).nanos < savePeriod.nanos + Duration.millisecond.nanos ∧
    (∀ point, c.clock.current ≤ point.toDuration → c.clock.CanJump →
      recover (c.set point).2.store = point.toDuration) ∧
    (∀ delta now, c.clock.current.add delta = .ok now → now.millis < UInt64.size →
      recover (c.advance delta).2.store =
        if savePeriod < now - saved then now.wholeMillis else recover c.store) := by
  intro saved savePeriod
  have hdurable : Durable (recover files) changes c :=
    run.invariant (durable_boot hone) (fun h step => h.carryOut step) (fun hany => by cases hany)
      (fun _ h => ⟨h.oneRefusing, h.recovered⟩) (fun h hmove => h.disturb hmove)
  have hstart := Clock.onSchedule_startingAt (recover files) config
  have hschedule := run.onSchedule hstart
  have hrecover := hdurable.recovered hrange
  obtain ⟨hle, hlt⟩ := hschedule.saved.wholeMillis (run.since_le hstart).2
  refine ⟨?_, hrecover ▸ hle, hrecover ▸ hlt, ?_, ?_⟩
  · rw [hrecover, Clock.Change.lastTime]
    cases changes.find? (·.saves) with
    | none => exact Duration.wholeMillis_ofMillis _
    | some change => rfl
  · intro point hpoint hjump
    have hmillis : point.toDuration.millis < UInt64.size := by
      rw [TimePoint.toDuration, Duration.millis_ofMillis]
      exact UInt64.toNat_lt_size _
    rw [set_of_some (Clock.set_of_le hjump hpoint)]
    exact (recover_save hdurable.oneRefusing hmillis).trans (Duration.wholeMillis_ofMillis _)
  · intro delta now hnow hmillis
    obtain ⟨later, change, hadvance, -, rfl, -, hsaves⟩ := run.advance_effects hstart hnow
    rw [hadvance]
    show recover (if change.saves then save change.time c.store else c.store) = _
    rw [apply_ite recover, recover_save hdurable.oneRefusing hmillis]
    exact ite_congr (propext hsaves) (fun _ => rfl) (fun _ => rfl)

theorem recovers_jump_past_failing_copies :
    let files := Files.empty.refuse "/time1"
    let c := ((boot .standard files : HeardClock String Files).set ⟨0, 0, 0, 1, 500⟩).2
    let c := { c with store := (c.store.heal "/time1").refuse "/time2" }
    recover (c.advance (.ofMillis 200)).2.store = .ofMillis 1500 := by
  intro files c c'
  have hset : (boot .standard files : HeardClock String Files).clock.set ⟨0, 0, 0, 1, 500⟩ =
      (.ok (some ⟨.ofMillis 1500, true, true⟩), .startingAt (.ofMillis 1500) .standard) := by cbv
  have hclock : c'.clock = .startingAt (.ofMillis 1500) .standard := congrArg (·.2.clock) (set_of_some hset)
  have hadvance : (c'.clock.advance (.ofMillis 200)).1 = .ok ⟨.ofMillis 1700, false, false⟩ := by
    rw [hclock]
    cbv
  have run : Run .inRange FailuresMove (boot .standard files)
      [⟨.ofMillis 1700, false, false⟩, ⟨.ofMillis 1500, true, true⟩] (c'.advance (.ofMillis 200)).2 :=
    .advance _ (.disturb (.set _ .start hset) (by decide +kernel)) hadvance
  exact (recovers_last_save (by decide +kernel) run (by decide +kernel)).1.trans (by cbv)

end HeardClock

end Spacecraft
