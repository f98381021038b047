import Spacecraft.Proofs.Antenna.Run
import Spacecraft.Proofs.Settings.MaskVote
import Spacecraft.Proofs.Settings.MissedWrites

/-!
# What the chips know of the antennas

The antenna task stores what it saw in the settings, and chips may refuse accesses at any time (`Event`).  It compares
what it saw with the settings in force, and these change even when no chip takes the change.  So every change of the
settings makes them know more (`Recorded`), but one that was not stored is not tried again
(`unstored_antenna_is_forgotten`).  What is loaded from the chips knows of all antennas exactly where the last change was
stored, or where the first chip took it and the others do not agree (`stored_mask_covers_seen_iff`).
-/

namespace Spacecraft

/-! ### Masks -/

/-- All bits of a part are set in a mask. -/
def Covers (mask part : UInt8) : Prop := mask &&& part = part

instance (mask part : UInt8) : Decidable (Covers mask part) := inferInstanceAs (Decidable (_ = _))

section Covers

variable {a b c : UInt8}

theorem Covers.refl (a : UInt8) : Covers a a := UInt8.and_self

theorem Covers.trans (hab : Covers a b) (hbc : Covers b c) : Covers a c := by
  unfold Covers at *
  rw [← hbc, ← UInt8.and_assoc, hab]

private theorem covers_or_left (a b : UInt8) : Covers (a ||| b) a := by
  apply UInt8.toBitVec_inj.1
  ext i hi
  simp only [UInt8.toBitVec_and, UInt8.toBitVec_or, BitVec.getElem_and, BitVec.getElem_or]
  cases a.toBitVec[i] <;> simp

private theorem covers_or_right (a b : UInt8) : Covers (a ||| b) b := by
  rw [UInt8.or_comm]
  exact covers_or_left b a

private theorem AntennaFlags.covers_union (a b : AntennaFlags) : Covers (a.union b).toMask a.toMask := by
  obtain ⟨a₁, a₂, a₃, a₄⟩ := a
  obtain ⟨b₁, b₂, b₃, b₄⟩ := b
  revert a₁ a₂ a₃ a₄ b₁ b₂ b₃ b₄
  decide

private theorem AntennaFlags.toMask_lt (flags : AntennaFlags) : flags.toMask < 16 := by
  obtain ⟨a, b, c, d⟩ := flags
  revert a b c d
  decide

/-- Antennas that are added to a mask leave its high bits alone. -/
private theorem high_or_antennas (mask : UInt8) (flags : AntennaFlags) :
    (mask ||| flags.toMask).toNat / 16 = mask.toNat / 16 := by
  have hlow : flags.toMask.toNat / 16 = 0 := Nat.div_eq_of_lt (UInt8.lt_iff_toNat_lt.1 flags.toMask_lt)
  calc (mask ||| flags.toMask).toNat / 16
      = (mask.toNat ||| flags.toMask.toNat) / 2 ^ 4 := by rw [UInt8.toNat_or]
    _ = mask.toNat / 16 ||| flags.toMask.toNat / 16 := Nat.or_div_two_pow
    _ = mask.toNat / 16 := by rw [hlow, Nat.or_zero]

/-- Masks with the same high bits differ in antennas only. -/
private theorem xor_lt_of_high (h : a.toNat / 16 = b.toNat / 16) : a ^^^ b < 16 := by
  have hhigh : (a ^^^ b).toNat / 16 = 0 := by
    calc (a ^^^ b).toNat / 16
        = (a.toNat ^^^ b.toNat) / 2 ^ 4 := by rw [UInt8.toNat_xor]
      _ = a.toNat / 16 ^^^ b.toNat / 16 := Nat.xor_div_two_pow
      _ = 0 := by rw [h, Nat.xor_self]
  exact UInt8.lt_iff_toNat_lt.2 ((Nat.div_eq_zero_iff_lt (by decide)).1 hhigh)

end Covers

/-! ### Events -/

namespace Deployment

/-- The settings with all antennas that were seen out. -/
def noted (task : Deployment) (settings : Settings) : Settings :=
  settings.withMask (settings.antennaMask ||| task.seen.toMask)

/-- There is no news exactly where the settings know of all antennas that were seen out. -/
private theorem hasNews_eq_false_iff {task : Deployment} {settings : Settings} :
    task.hasNews settings = false ↔ Covers settings.antennaMask task.seen.toMask := by
  rw [hasNews, bne_eq_false_iff_eq, Covers]

private theorem covers_seen_observe (reading : Except DeviceError AntennaStatus) (task : Deployment) :
    Covers (task.observe reading).2.seen.toMask task.seen.toMask := by
  cases reading with
  | ok status => exact AntennaFlags.covers_union _ _
  | error e => exact Covers.refl _

end Deployment

namespace DeploymentTask

/-- What happens to the task, or to the chips on which it stores what it saw. -/
inductive Event where
  | operation (operation : Operation)
  /-- From now on just these chips refuse accesses. -/
  | switch (failing : Triple Bool)

section Events

variable {δ : Type} [AntennaDriver δ] (limits : DeploymentLimits)

/-- The attempt to store news that an operation makes, if it makes one. -/
def attempt? (operation : Operation) (task : DeploymentTask δ) : Option SettingsStore.Attempt :=
  match operation with
  | .pass snapshot =>
    let deployment := (task.update snapshot).2.2.deployment
    (task.settings.filter fun store => deployment.hasNews store.current).map (·.attempt deployment.noted)
  | .setOverride _ | .restart => none

/-- The task after an event, with the attempts so far, latest first. -/
def handle (event : Event) (state : DeploymentTask δ × List SettingsStore.Attempt) :
    DeploymentTask δ × List SettingsStore.Attempt :=
  let (task, attempts) := state
  match event with
  | .operation operation => (task.perform limits operation, (task.attempt? operation).toList ++ attempts)
  | .switch failing =>
    ({ task with
      settings := task.settings.map fun store => { store with bank := SettingsStore.switch failing store.bank } },
      attempts)

/-- The task after events in order, with the attempts, latest first. -/
def afterEvents (events : List Event) (task : DeploymentTask δ) : DeploymentTask δ × List SettingsStore.Attempt :=
  events.foldl (fun state event => handle limits event state) (task, [])

end Events

end DeploymentTask

/-! ### What was recorded -/

namespace SettingsStore

/-- The settings that were ever in force, latest first. -/
def tried (start : SettingsStore) (attempts : List Attempt) : List Settings :=
  attempts.map (·.settings) ++ [start.current]

/-- The settings know more and more antennas, and only the last ones know of all that were seen. -/
structure Recorded (start : SettingsStore) (attempts : List Attempt) (store : SettingsStore) (seen : UInt8) :
    Prop where
  run : Run SameContents start attempts store
  current : (tried start attempts).head? = some store.current
  behind : ∀ settings ∈ (tried start attempts).tail, ¬ Covers settings.antennaMask seen
  grown : ∀ settings ∈ tried start attempts, Covers store.current.antennaMask settings.antennaMask
  /-- Nothing but the antennas differs. -/
  others : ∀ settings ∈ tried start attempts, settings = start.current.withMask settings.antennaMask ∧
    settings.antennaMask.toNat / 16 = start.current.antennaMask.toNat / 16

variable {start store : SettingsStore} {attempts : List Attempt} {seen seen' : UInt8}

private theorem recorded_start (start : SettingsStore) (seen : UInt8) : Recorded start [] start seen where
  run := .start
  current := rfl
  behind := fun _ h => absurd h List.not_mem_nil
  grown := by
    intro settings h
    obtain rfl := List.mem_singleton.1 h
    exact Covers.refl _
  others := by
    intro settings h
    obtain rfl := List.mem_singleton.1 h
    exact ⟨rfl, rfl⟩

theorem Recorded.see (h : Recorded start attempts store seen) (hseen : Covers seen' seen) :
    Recorded start attempts store seen' :=
  { h with behind := fun settings hmem hcovers => h.behind settings hmem (hcovers.trans hseen) }

theorem Recorded.switch (h : Recorded start attempts store seen) (failing : Triple Bool) :
    Recorded start attempts { store with bank := SettingsStore.switch failing store.bank } seen :=
  { h with run := h.run.disturb (sameContents_switch failing store.bank) }

/-- News is recorded: it was not known before, so none of the settings before knows of it. -/
theorem Recorded.note (h : Recorded start attempts store seen) {deployment : Deployment}
    (hnews : deployment.hasNews store.current = true) :
    Recorded start (store.attempt deployment.noted :: attempts) (store.modify deployment.noted).2.2
      deployment.seen.toMask where
  run := h.run.modify deployment.noted
  current := rfl
  behind := by
    intro settings hmem hcovers
    have hcurrent := (h.grown settings hmem).trans hcovers
    rw [← Deployment.hasNews_eq_false_iff, hnews] at hcurrent
    exact Bool.noConfusion hcurrent
  grown := by
    intro settings hmem
    rcases List.mem_cons.1 hmem with rfl | hmem
    · exact Covers.refl _
    · exact (covers_or_left _ _).trans (h.grown settings hmem)
  others := by
    intro settings hmem
    rcases List.mem_cons.1 hmem with rfl | hmem
    · obtain ⟨hsettings, hhigh⟩ := h.others store.current (List.mem_of_mem_head? h.current)
      have hnoted (mask : UInt8) : store.current.withMask mask = start.current.withMask mask := by
        rw [hsettings]
        rfl
      exact ⟨hnoted _, (high_or_antennas _ _).trans hhigh⟩
    · exact h.others settings hmem

/-! ### What is loaded -/

/-- A change was stored exactly where two chips took it. -/
private theorem Run.result_eq_ok_iff {disturbs : ChipBank → ChipBank → Prop} {a : Attempt}
    (run : Run disturbs start attempts store) (ha : a ∈ attempts) :
    a.result = .ok () ↔ ∃ i j, i ≠ j ∧ a.taken.get i = true ∧ a.taken.get j = true := by
  induction run with
  | start => exact absurd ha List.not_mem_nil
  | modify change _ ih =>
    rcases List.mem_cons.1 ha with rfl | ha
    · simp only [get_taken_attempt]
      exact fst_modify_eq_ok_iff
    · exact ih ha
  | disturb _ _ ih => exact ih ha

/-- After a change that was stored, with all chips readable, the settings in force are loaded. -/
private theorem Recorded.loads_current {a : Attempt} (h : Recorded start attempts store seen)
    (hlast : attempts.head? = some a)
    (hok : a.result = .ok ()) (hworking : ∀ i, working store.bank i = true) :
    (load store.bank).1.current = store.current := by
  obtain ⟨earlier, rfl⟩ := List.head?_eq_some_iff.1 hlast
  obtain ⟨i, j, hij, hi, hj⟩ := (h.run.result_eq_ok_iff List.mem_cons_self).1 hok
  have hrecord (k : Fin 3) (hk : a.taken.get k = true) : record store.bank k = a.settings.encode := by
    rw [h.run.record_eq, lastTaken_cons, if_pos hk]
  have hload := current_load_of_two hij (hworking i) (hworking j) (by rw [hrecord i hi, hrecord j hj])
  rw [hload, hrecord i hi, Settings.ofRecord?_encode]
  exact Option.some.inj h.current

/-- With all chips readable, the first one is loaded where the others do not agree. -/
private theorem Recorded.loads_first (h : Recorded start attempts store seen)
    (hworking : ∀ i, working store.bank i = true)
    {held : Fin 3 → Settings} (hheld : ∀ i, held i ∈ tried start attempts)
    (hrecord : ∀ i, record store.bank i = (held i).encode) (hdiffer : record store.bank 1 ≠ record store.bank 2) :
    (load store.bank).1.current = held 0 := by
  have hmask (i : Fin 3) : held i = start.current.withMask (held i).antennaMask := (h.others _ (hheld i)).1
  have hhigh (i : Fin 3) := (h.others _ (hheld i)).2
  have hne : (held 1).antennaMask ≠ (held 2).antennaMask := by
    intro hsame
    rw [hrecord, hrecord, hmask 1, hmask 2, hsame] at hdiffer
    exact hdiffer rfl
  have hvote := start.current.vote_encode_of_antennas (held 0).antennaMask hne
    (xor_lt_of_high ((hhigh 1).trans (hhigh 2).symm))
  rw [← hmask 0, ← hmask 1, ← hmask 2] at hvote
  rw [current_load_of_all hworking, hrecord 0, hrecord 1, hrecord 2, hvote, Settings.ofRecord?_encode]
  rfl

section Synchronized

variable (hstart : ∀ i, record start.bank i = start.current.encode)
include hstart

/-- Without any change the settings of the start are loaded, as all chips hold them. -/
private theorem Recorded.loads_start (h : Recorded start [] store seen) (hworking : ∀ i, working store.bank i = true) :
    (load store.bank).1.current = store.current := by
  have hrecord (i : Fin 3) : record store.bank i = start.current.encode := by
    rw [h.run.record_eq, ← hstart i]
    rfl
  have hload := current_load_of_two (i := 0) (j := 1) (by decide) (hworking 0) (hworking 1) (by rw [hrecord, hrecord])
  rw [hload, hrecord, Settings.ofRecord?_encode]
  exact Option.some.inj h.current

/-- A chip holds settings that were in force: the last ones if it took them, and else some that do not know of all
antennas. -/
theorem Recorded.record_eq {a : Attempt} {earlier : List Attempt} (h : Recorded start (a :: earlier) store seen)
    (i : Fin 3) :
    ∃ settings ∈ tried start (a :: earlier), record store.bank i = settings.encode ∧
      if a.taken.get i then settings = store.current else ¬ Covers settings.antennaMask seen := by
  rw [h.run.record_eq, lastTaken_cons, hstart]
  cases a.taken.get i with
  | true => exact ⟨a.settings, List.mem_cons_self, rfl, Option.some.inj h.current⟩
  | false =>
    obtain ⟨settings, hmem, hsettings⟩ : ∃ settings ∈ (tried start (a :: earlier)).tail,
        lastTaken i start.current.encode earlier = settings.encode := by
      rcases lastTaken_mem i start.current.encode earlier with hlast | ⟨b, hb, hlast⟩
      · exact ⟨start.current, List.mem_append_right _ (List.mem_singleton_self _), hlast⟩
      · exact ⟨b.settings, List.mem_append_left _ (List.mem_map_of_mem hb), hlast⟩
    exact ⟨settings, List.mem_cons_of_mem _ hmem, hsettings, h.behind settings hmem⟩

/-- After a change that was not stored, with all chips readable, what is loaded knows of all antennas exactly where the
first chip took the change and the others do not agree. -/
private theorem Recorded.covers_iff_of_missed {a : Attempt} {earlier : List Attempt}
    (h : Recorded start (a :: earlier) store seen) (hcurrent : Covers store.current.antennaMask seen)
    (hworking : ∀ i, working store.bank i = true) (hmissed : a.result ≠ .ok ()) :
    Covers (load store.bank).1.current.antennaMask seen ↔
      a.taken.get 0 = true ∧ record store.bank 1 ≠ record store.bank 2 := by
  choose held hheld hrecord htaken using h.record_eq hstart
  have hfew : a.taken.get 1 = false ∨ a.taken.get 2 = false := by
    rw [← Bool.and_eq_false_iff, ← Bool.not_eq_true, Bool.and_eq_true_iff]
    exact fun htwo => hmissed ((h.run.result_eq_ok_iff List.mem_cons_self).2 ⟨1, 2, by decide, htwo⟩)
  by_cases hsame : record store.bank 1 = record store.bank 2
  · -- The two agree on settings that one of them holds from before.
    refine iff_of_false ?_ fun hright => hright.2 hsame
    rw [current_load_of_two (i := 1) (j := 2) (by decide) (hworking 1) (hworking 2) hsame.symm]
    rcases hfew with hold | hold
    · have hbehind := htaken 1
      rw [hold] at hbehind
      rwa [hrecord, Settings.ofRecord?_encode]
    · have hbehind := htaken 2
      rw [hold] at hbehind
      rwa [hsame, hrecord, Settings.ofRecord?_encode]
  · rw [h.loads_first hworking hheld hrecord hsame]
    have hfirst := htaken 0
    cases hget : a.taken.get 0 with
    | true =>
      rw [hget, if_pos rfl] at hfirst
      exact iff_of_true (hfirst ▸ hcurrent) ⟨rfl, hsame⟩
    | false =>
      rw [hget] at hfirst
      exact iff_of_false hfirst fun hright => Bool.noConfusion hright.1

/-- With all chips readable, what is loaded knows of all antennas exactly where there was no change, or the last one was
stored, or the first chip took it and the others do not agree. -/
private theorem Recorded.covers_iff (h : Recorded start attempts store seen)
    (hcurrent : Covers store.current.antennaMask seen)
    (hworking : ∀ i, working store.bank i = true) :
    Covers (load store.bank).1.current.antennaMask seen ↔ ∀ a, attempts.head? = some a →
      a.result = .ok () ∨ a.taken.get 0 = true ∧ record store.bank 1 ≠ record store.bank 2 := by
  cases attempts with
  | nil =>
    rw [h.loads_start hstart hworking]
    exact iff_of_true hcurrent fun a hlast => by cases hlast
  | cons a earlier =>
    simp only [List.head?_cons, Option.some.injEq, forall_eq']
    by_cases hok : a.result = .ok ()
    · rw [h.loads_current rfl hok hworking]
      exact iff_of_true hcurrent (Or.inl hok)
    · rw [h.covers_iff_of_missed hstart hcurrent hworking hok, or_iff_right hok]

end Synchronized

end SettingsStore

/-! ### Runs -/

namespace DeploymentTask

variable {δ : Type} [AntennaDriver δ] (limits : DeploymentLimits)

private theorem covers_seen_update (snapshot : Snapshot) (task : DeploymentTask δ) :
    Covers (task.update snapshot).2.2.deployment.seen.toMask task.deployment.seen.toMask := by
  rcases task.update_cases snapshot with ⟨-, hdeployment, -⟩ | ⟨_, _, reading, _, -, hdeployment, -⟩
  · rw [hdeployment]
    exact Covers.refl _
  · rw [hdeployment]
    exact Deployment.covers_seen_observe reading _

/-- A step of the plan teaches nothing and stores nothing. -/
private theorem pass_eq_update (snapshot : Snapshot) (task : DeploymentTask δ) :
    (task.pass limits snapshot).settings = (task.update snapshot).2.2.settings ∧
      (task.pass limits snapshot).deployment.seen = (task.update snapshot).2.2.deployment.seen := by
  have hexecute (task : DeploymentTask δ) : (task.execute limits).deployment.seen = task.deployment.seen := by
    rcases task.execute_cases limits with ⟨-, h⟩ | ⟨_, _, _, -, h, -⟩
    · rw [h]
    · rw [h, Deployment.advance]
      split <;> rfl
  rcases task.pass_cases limits snapshot with ⟨-, hpass⟩ | ⟨-, hpass⟩
  · rw [hpass]
    exact ⟨rfl, hexecute _⟩
  · rw [hpass]
    exact ⟨rfl, rfl⟩

variable {start store : SettingsStore} {attempts : List SettingsStore.Attempt} {task : DeploymentTask δ}

open SettingsStore (Recorded)

/-- After a pass the settings in force know of all antennas that were seen. -/
private theorem recorded_pass (hsettings : task.settings = some store)
    (h : Recorded start attempts store task.deployment.seen.toMask) (snapshot : Snapshot) :
    let next := task.pass limits snapshot
    ∃ store', next.settings = some store' ∧ Covers store'.current.antennaMask next.deployment.seen.toMask ∧
      Recorded start ((task.attempt? (.pass snapshot)).toList ++ attempts) store' next.deployment.seen.toMask := by
  intro next
  obtain ⟨hsettings', hseen'⟩ := task.pass_eq_update limits snapshot
  have hgrown := task.covers_seen_update snapshot
  have hattempt : task.attempt? (.pass snapshot) =
      if (task.update snapshot).2.2.deployment.hasNews store.current then
        some (store.attempt (task.update snapshot).2.2.deployment.noted) else none := by
    rw [attempt?, hsettings]
    dsimp only [Option.filter]
    split <;> rfl
  have hstore : (task.update snapshot).2.2.settings =
      some ((task.update snapshot).2.2.deployment.remember store).2 :=
    congrArg (Option.map _) hsettings
  rw [hseen', hsettings', hattempt, hstore, Deployment.remember]
  cases hnews : (task.update snapshot).2.2.deployment.hasNews store.current with
  | true => exact ⟨_, rfl, covers_or_right _ _, (h.see hgrown).note hnews⟩
  | false => exact ⟨store, rfl, Deployment.hasNews_eq_false_iff.1 hnews, h.see hgrown⟩

private theorem recorded_handle (hsettings : task.settings = some store)
    (h : Recorded start attempts store task.deployment.seen.toMask) (event : Event) :
    let (next, attempts') := handle limits event (task, attempts)
    ∃ store', next.settings = some store' ∧ Recorded start attempts' store' next.deployment.seen.toMask := by
  cases event with
  | operation operation =>
    cases operation with
    | pass snapshot =>
      obtain ⟨store', hsettings', -, h'⟩ := recorded_pass limits hsettings h snapshot
      exact ⟨store', hsettings', h'⟩
    | setOverride enable => exact ⟨store, hsettings, h⟩
    | restart => exact ⟨store, hsettings, h⟩
  | switch failing => exact ⟨_, congrArg (Option.map _) hsettings, h.switch failing⟩

private theorem recorded_afterEvents (controllers : δ) (start : SettingsStore) (events : List Event) :
    let (task, attempts) := afterEvents limits events (.start controllers (some start))
    ∃ store, task.settings = some store ∧ Recorded start attempts store task.deployment.seen.toMask := by
  have hrun (events : List Event) (state : DeploymentTask δ × List SettingsStore.Attempt)
      (h : ∃ store, state.1.settings = some store ∧ Recorded start state.2 store state.1.deployment.seen.toMask) :
      let (task, attempts) := events.foldl (fun state event => handle limits event state) state
      ∃ store, task.settings = some store ∧ Recorded start attempts store task.deployment.seen.toMask := by
    induction events generalizing state with
    | nil => exact h
    | cons event events ih =>
      obtain ⟨store, hsettings, hrecorded⟩ := h
      exact ih _ (recorded_handle limits hsettings hrecorded event)
  exact hrun events _ ⟨start, rfl, SettingsStore.recorded_start start _⟩

/-- In any run of the task, whatever chips refuse accesses when, a pass leaves settings in force that know of all
antennas that were seen.  If no chip refuses, they are loaded from the chips where the last change of the settings was
stored.  And if all chips held the settings in force at the start, what is loaded knows of all antennas exactly where
there was no change, or the last one was stored, or the first chip took it and the others do not agree. -/
theorem stored_mask_covers_seen_iff (controllers : δ) (start : SettingsStore) (events : List Event)
    (snapshot : Snapshot) :
    let (task, attempts) :=
      afterEvents limits (events ++ [.operation (.pass snapshot)]) (.start controllers (some start))
    let seen := task.deployment.seen.toMask
    ∃ store, task.settings = some store ∧ Covers store.current.antennaMask seen ∧
      ((∀ i, SettingsStore.working store.bank i = true) →
        let loaded := (SettingsStore.load store.bank).1.current
        (∀ a, attempts.head? = some a → a.result = .ok () → loaded = store.current) ∧
          ((∀ i, SettingsStore.record start.bank i = start.current.encode) →
            (Covers loaded.antennaMask seen ↔ ∀ a, attempts.head? = some a → a.result = .ok () ∨
              a.taken.get 0 = true ∧ SettingsStore.record store.bank 1 ≠ SettingsStore.record store.bank 2))) := by
  rw [afterEvents, List.foldl_append]
  obtain ⟨before, hsettings, hbefore⟩ := recorded_afterEvents limits controllers start events
  obtain ⟨store, hstore, hcurrent, hrecorded⟩ := recorded_pass limits hsettings hbefore snapshot
  exact ⟨store, hstore, hcurrent, fun hworking => ⟨fun a hlast hok => hrecorded.loads_current hlast hok hworking,
    fun hstart => hrecorded.covers_iff hstart hcurrent hworking⟩⟩

/-- All chips refuse the record with the first antenna.  They accept accesses before the next pass, but this one does not
store anything, and the antenna is not known when the settings are loaded. -/
theorem unstored_antenna_is_forgotten :
    let status : AntennaStatus := { AntennaStatus.initial with deployed := ⟨true, false, false, false⟩ }
    let start : SettingsStore := ⟨SettingsStore.holding .initial, .initial⟩
    let events : List Event := [.switch (.replicate true), .operation (.pass .initial), .switch (.replicate false)]
    let (task, _) := afterEvents ⟨.zero, .ofMillis 10, .ofMillis 20⟩ (events ++ [.operation (.pass .initial)])
      (.start (AntennaBench.fresh.setStatus .primary status) (some start))
    ∃ store, task.settings = some store ∧ (∀ i, SettingsStore.working store.bank i = true) ∧
      ¬ Covers (SettingsStore.load store.bank).1.current.antennaMask task.deployment.seen.toMask := by
  refine ⟨_, rfl, ?_, ?_⟩
  · decide +kernel
  · decide +kernel

end DeploymentTask

end Spacecraft
