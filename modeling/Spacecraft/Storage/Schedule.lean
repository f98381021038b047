import Spacecraft.Storage.Store

/-!
# A store with a schedule of write failures

A wrapper around a store that fails the writes its schedule marks and keeps the paths that were asked to be written,
whether or not the write went through.  Appends, moves and reads pass through untouched.
-/

namespace Spacecraft

/-- A store together with the verdicts on its next writes. -/
structure Scheduled (σ : Type) where
  store : σ
  /-- One entry per coming write; `true` fails it. -/
  verdicts : List Bool
  /-- The paths of all writes so far, latest first. -/
  asked : List String

namespace Scheduled

variable {σ : Type}

/-- A store with nothing scheduled. -/
def ofStore (store : σ) : Scheduled σ := ⟨store, [], []⟩

/-- Change the store behind the schedule. -/
def mapStore (f : σ → σ) (s : Scheduled σ) : Scheduled σ :=
  { s with store := f s.store }

/-- Add verdicts after those that still wait. -/
def schedule (verdicts : List Bool) (s : Scheduled σ) : Scheduled σ :=
  { s with verdicts := s.verdicts ++ verdicts }

/-- Write unless the next verdict fails it. -/
def write [FileStore σ] (path : String) (content : Bytes) (s : Scheduled σ) : Except FileError Unit × Scheduled σ :=
  let next := { s with verdicts := s.verdicts.tail, asked := path :: s.asked }
  if s.verdicts.head? = some true then (.error (.refused path), next)
  else
    let (result, store) := FileStore.write path content s.store
    (result, { next with store })

/-- Let an operation of the store behind the schedule through. -/
def through (op : σ → Except FileError Unit × σ) (s : Scheduled σ) : Except FileError Unit × Scheduled σ :=
  let (result, store) := op s.store
  (result, { s with store })

instance [FileStore σ] : FileStore (Scheduled σ) where
  read s := FileStore.read s.store
  write := write
  append path content := through (FileStore.append path content)
  rename source target := through (FileStore.rename source target)
  size s := FileStore.size s.store

end Scheduled

end Spacecraft
