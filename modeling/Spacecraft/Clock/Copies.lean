import Spacecraft.Duration
import Spacecraft.Redundancy.Triple
import Spacecraft.Storage.Store

/-!
# Three copies of the mission time

The time is kept in three files, eight bytes each.  At boot the value that two copies agree on counts, else the
smallest; a missing or short copy counts as zero.  A save writes all three and tries again while more than one write
fails, three times at most.
-/

namespace Spacecraft

namespace TimeCopies

/-- The files that hold the copies. -/
def paths : Triple String := ⟨"/time0", "/time1", "/time2"⟩

/-- The value that at least two copies hold, else the smallest. -/
def vote (values : Triple UInt64) : UInt64 :=
  values.majority?.getD (min values.first (min values.second values.third))

variable {σ : Type} [FileStore σ]

/-- The value of one copy, if the file is long enough. -/
def read (store : σ) (path : String) : Option UInt64 :=
  match FileStore.readExact 8 store path with
  | .ok bytes => some (UInt64.ofNat (LittleEndian.decode bytes))
  | .error _ => none

/-- The time that the copies vote for. -/
def recover (store : σ) : Duration :=
  .ofMillis (vote (paths.map fun path => (read store path).getD 0))

/-- A time as the content of a copy. -/
def content (time : Duration) : Bytes := LittleEndian.encode 8 time.millis64.toNat

/-- Write the same content to files in order; the number is that of the writes that failed. -/
def writeAll (content : Bytes) : List String → σ → Nat × σ
  | [], store => (0, store)
  | path :: rest, store =>
    let (result, store) := FileStore.write path content store
    let (errors, store) := writeAll content rest store
    (errors + (if result.toBool then 0 else 1), store)

/-- Write all copies, again while more than one write fails and attempts are left. -/
def attempt (content : Bytes) : Nat → σ → σ
  | 0, store => store
  | attempts + 1, store =>
    let (errors, store) := writeAll content paths.toList store
    if errors ≤ 1 then store else attempt content attempts store

/-- The number of times a save is tried. -/
def attempts : Nat := 3

/-- Save a time. -/
def save (time : Duration) (store : σ) : σ := attempt (content time) attempts store

end TimeCopies

end Spacecraft
