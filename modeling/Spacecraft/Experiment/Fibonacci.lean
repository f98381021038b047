import Spacecraft.Experiment.Thread
import Spacecraft.Storage.Store

/-!
# The Fibonacci experiment

One term of the Fibonacci sequence per iteration, appended to a file in eight bytes.  Terms beyond 64 bits stay at the
largest word.
-/

namespace Spacecraft

/-- A run of the experiment: how many terms it computes, how many it has, and the next two. -/
structure Fibonacci where
  terms : UInt32
  computed : UInt32
  current : UInt64
  next : UInt64
deriving DecidableEq

namespace Fibonacci

/-- The code under which the experiment is asked for. -/
def code : UInt8 := 1

/-- The file that terms are appended to. -/
def path : String := "/fibo.dat"

/-- An experiment that has not run yet. -/
def fresh (terms : UInt32) : Fibonacci := ⟨terms, 0, 0, 1⟩

/-- Change the number of terms to compute. -/
def setTerms (terms : UInt32) (fib : Fibonacci) : Fibonacci := { fib with terms }

/-- The sum of two words, stopping at the largest word. -/
def saturatingAdd (a b : UInt64) : UInt64 := UInt64.ofNat (min (a.toNat + b.toNat) 18446744073709551615)

variable {σ : Type} [FileStore σ]

/-- Empty the file and begin with the first term. -/
def start (fib : Fibonacci) (store : σ) : StartResult × Fibonacci × σ :=
  match FileStore.write path [] store with
  | (.error _, store) => (.failure, fib, store)
  | (.ok (), store) => (.success, fresh fib.terms, store)

/-- Append one term. -/
def iterate (fib : Fibonacci) (store : σ) : IterationResult × Fibonacci × σ :=
  if fib.terms ≤ fib.computed then (.finished, fib, store)
  else
    match FileStore.append path (LittleEndian.encode 8 fib.current.toNat) store with
    | (.error _, store) => (.failure, fib, store)
    | (.ok (), store) =>
      let fib := { fib with
        current := fib.next
        next := saturatingAdd fib.current fib.next
        computed := fib.computed + 1 }
      (if fib.terms ≤ fib.computed then .finished else .waitForNextCycle, fib, store)

/-- The experiment on a world that holds its state and a store. -/
def experiment {ω : Type} (get : ω → Fibonacci × σ) (put : Fibonacci × σ → ω → ω) : Experiment ω where
  code := code
  start _ world :=
    let (fib, store) := get world
    let (result, fib, store) := fib.start store
    (result, put (fib, store) world)
  iterate _ world :=
    let (fib, store) := get world
    let (result, fib, store) := fib.iterate store
    (result, [], put (fib, store) world)
  stop _ world := world

end Fibonacci

end Spacecraft
