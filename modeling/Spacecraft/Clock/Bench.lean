import Spacecraft.Clock.Drift
import Spacecraft.Signal.Pulse

/-!
# Clocks on the test bench

A mission clock with its store and a listener, a clock that stands still and cannot be read, and a clock that runs but
refuses to be moved.
-/

namespace Spacecraft

/-- A mission clock with its store, who listens to it, and what listeners heard, latest first. -/
structure HeardClock (ν σ : Type) where
  clock : Clock
  store : σ
  /-- Fires with every announcement, also when nobody listens. -/
  tick : Pulse
  listener : Option ν
  heard : List (ν × TimePoint)

namespace HeardClock

variable {ν σ : Type} [FileStore σ]

/-- A clock that starts at the time kept in a store, with nobody listening. -/
def boot (config : MissionConfig) (store : σ) : HeardClock ν σ := ⟨.boot config store, store, .silent, none, []⟩

/-- Start again from the store. -/
def reboot (config : MissionConfig) (c : HeardClock ν σ) : HeardClock ν σ :=
  { c with clock := .boot config c.store, tick := .silent, listener := none }

/-- Let somebody listen, and nobody else. -/
def listen (listener : ν) (c : HeardClock ν σ) : HeardClock ν σ := { c with listener := some listener }

/-- Carry out a change: announce it to the listener and save it, as far as either is due. -/
def carryOut (change : Clock.Change) (c : HeardClock ν σ) : HeardClock ν σ :=
  { c with
    store := change.save c.store
    tick := if change.announces then c.tick.fire else c.tick
    heard := match c.listener, change.announcement? with
      | some listener, some point => (listener, point) :: c.heard
      | _, _ => c.heard }

/-- What listeners heard once a time is announced to the one who listens. -/
def told (time : Duration) (c : HeardClock ν σ) : List (ν × TimePoint) :=
  (c.listener.map fun listener => (listener, TimePoint.ofDuration time)).toList ++ c.heard

/-- Let time pass. -/
def advance (delta : Duration) (c : HeardClock ν σ) : Except Duration.Overflow Unit × HeardClock ν σ :=
  match c.clock.advance delta with
  | (.error e, clock) => (.error e, { c with clock })
  | (.ok change, clock) => (.ok (), { c with clock }.carryOut change)

/-- Let spans of time pass one after the other. -/
def advanceAll (deltas : List Duration) (c : HeardClock ν σ) : HeardClock ν σ :=
  deltas.foldl (fun c delta => (c.advance delta).2) c

/-- Jump to a point of time; refused where that lies in the past. -/
def set (point : TimePoint) (c : HeardClock ν σ) : Except Duration.Overflow Bool × HeardClock ν σ :=
  match c.clock.set point with
  | (.error e, clock) => (.error e, { c with clock })
  | (.ok none, clock) => (.ok false, { c with clock })
  | (.ok (some change), clock) => (.ok true, { c with clock }.carryOut change)

theorem heard_carryOut (change : Clock.Change) (c : HeardClock ν σ) :
    (c.carryOut change).heard = if change.announces then c.told change.time else c.heard := by
  unfold carryOut told Clock.Change.announcement?
  cases change.announces <;> cases c.listener <;> rfl

theorem fired_carryOut (change : Clock.Change) (c : HeardClock ν σ) :
    (c.carryOut change).tick.fired = c.tick.fired + if change.announces then 1 else 0 := by
  unfold carryOut
  cases change.announces <;> rfl

theorem advance_of_ok {c : HeardClock ν σ} {delta : Duration} {change : Clock.Change}
    (h : (c.clock.advance delta).1 = .ok change) :
    c.advance delta = (.ok (), { c with clock := (c.clock.advance delta).2 }.carryOut change) := by
  unfold advance
  generalize c.clock.advance delta = outcome at h ⊢
  obtain ⟨result, clock⟩ := outcome
  cases h
  rfl

theorem set_of_some {c : HeardClock ν σ} {point : TimePoint} {change : Clock.Change} {clock : Clock}
    (h : c.clock.set point = (.ok (some change), clock)) :
    c.set point = (.ok true, { c with clock }.carryOut change) := by
  rw [set, h]

theorem set_of_lt {c : HeardClock ν σ} {point : TimePoint} (h : point.toDuration < c.clock.current) :
    c.set point = (.ok false, c) := by
  rw [set, Clock.set_of_lt h]

theorem set_of_error {c : HeardClock ν σ} {point : TimePoint} {e : Duration.Overflow} {clock : Clock}
    (h : c.clock.set point = (.error e, clock)) : c.set point = (.error e, { c with clock }) := by
  rw [set, h]

end HeardClock

/-- A clock for trying tasks out. -/
inductive BenchClock (σ : Type) where
  | running (clock : Clock) (store : σ)
  | stopped (store : σ)
  | refusing (now : Duration) (store : σ)

namespace BenchClock

variable {σ : Type} [FileStore σ]

/-- The store behind the clock. -/
def store : BenchClock σ → σ
  | running _ store | stopped store | refusing _ store => store

/-- Change the store behind the clock. -/
def mapStore (f : σ → σ) : BenchClock σ → BenchClock σ
  | running clock store => running clock (f store)
  | stopped store => stopped (f store)
  | refusing now store => refusing now (f store)

/-- The time, if the clock can be read. -/
def now? : BenchClock σ → Option Duration
  | running clock _ => some clock.current
  | stopped _ => none
  | refusing now _ => some now

/-- Jump to a point of time, if the clock can be moved. -/
def set (point : TimePoint) : BenchClock σ → Except Duration.Overflow Bool × BenchClock σ
  | running clock store =>
    match clock.set point with
    | (.error e, clock) => (.error e, running clock store)
    | (.ok none, clock) => (.ok false, running clock store)
    | (.ok (some change), clock) => (.ok true, running clock (change.save store))
  | stopped store => (.ok false, stopped store)
  | refusing now store => (.ok false, refusing now store)

/-- Let time pass. -/
def advance (delta : Duration) : BenchClock σ → Except Duration.Overflow Unit × BenchClock σ
  | running clock store =>
    match clock.advance delta with
    | (.error e, clock) => (.error e, running clock store)
    | (.ok change, clock) => (.ok (), running clock (change.save store))
  | stopped store => (.ok (), stopped store)
  | refusing now store =>
    match now.add delta with
    | .error e => (.error e, refusing now store)
    | .ok now => (.ok (), refusing now store)

instance : SettableClock (BenchClock σ) where
  now? := now?
  set := set

end BenchClock

end Spacecraft
