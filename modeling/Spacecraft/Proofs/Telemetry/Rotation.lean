import Mathlib.Data.List.Basic
import Mathlib.Data.List.Induction
import Spacecraft.Storage.Files
import Spacecraft.Telemetry.Archive

/-!
# Records in the archive

Saves follow one another while any path may refuse to be written, another one at every save.  What a save does to the
two files depends only on whether the current file could be put aside and whether the record could be added
(`Outcome`), and these outcomes say where every record is (`Filing`).  A record that was added leaves the current file
for the previous one, and the previous one for good, and never otherwise; so the records that are left are the last
ones that were added, in order (`keeps_records_in_order`).
-/

namespace Spacecraft

namespace TelemetryArchive

/-! ### A save of the archive -/

/-- The current file is full, and it can be put aside. -/
def rotates (limit : UInt64) (files : Files) : Bool :=
  isFull limit files && (FileStore.rename currentPath previousPath files).1.toBool

/-- The record can be added to the current file. -/
def appends (limit : UInt64) (record : TelemetryRecord) (files : Files) : Bool :=
  (FileStore.append currentPath record.encode (rotate limit files)).1.toBool

private theorem isFull_iff {limit : UInt64} {files : Files} :
    isFull limit files = true ↔ ∃ content, files.find? currentPath = some content ∧ limit.toNat ≤ content.length := by
  have hsize : FileStore.size files currentPath = files.size currentPath := rfl
  rw [isFull, hsize, Files.size]
  cases files.find? currentPath with
  | none => simp
  | some content => simp

private theorem rotates_eq (limit : UInt64) (files : Files) :
    rotates limit files = (isFull limit files && !files.refuses previousPath) := by
  have hrename : FileStore.rename currentPath previousPath files = files.rename currentPath previousPath := rfl
  rw [rotates, hrename, Files.toBool_rename]
  cases hfull : isFull limit files with
  | false => rfl
  | true =>
    obtain ⟨content, hcontent, -⟩ := isFull_iff.1 hfull
    rw [hcontent]
    rfl

private theorem find?_rotate (limit : UInt64) (files : Files) (path : String) :
    (rotate limit files).find? path =
      if rotates limit files then
        if path = previousPath then files.find? currentPath
        else if path = currentPath then none else files.find? path
      else files.find? path := by
  rw [rotate, rotates]
  cases isFull limit files with
  | false => rfl
  | true => exact files.find?_rename currentPath previousPath path

private theorem appends_eq (limit : UInt64) (record : TelemetryRecord) (files : Files) :
    appends limit record files = !files.refuses currentPath := by
  rw [← (sameBut_rotate limit files).refuses]
  exact (rotate limit files).toBool_append currentPath record.encode

private theorem find?_previous_save (limit : UInt64) (record : TelemetryRecord) (files : Files) :
    (save limit record files).find? previousPath =
      if rotates limit files then files.find? currentPath else files.find? previousPath := by
  have hne : previousPath ≠ currentPath := by decide
  have happend := (rotate limit files).find?_append currentPath previousPath record.encode
  rw [if_neg fun h => hne h.1, find?_rotate, if_pos rfl] at happend
  exact happend

private theorem find?_current_save (limit : UInt64) (record : TelemetryRecord) (files : Files) :
    (save limit record files).find? currentPath =
      if appends limit record files then
        some ((if rotates limit files then [] else (files.find? currentPath).getD []) ++ record.encode)
      else if rotates limit files then none else files.find? currentPath := by
  have hne : currentPath ≠ previousPath := by decide
  have happend := (rotate limit files).find?_append currentPath currentPath record.encode
  rw [find?_rotate, if_neg hne, if_pos rfl, (sameBut_rotate limit files).refuses] at happend
  rw [appends_eq]
  refine Eq.trans happend ?_
  cases files.refuses currentPath <;> cases rotates limit files <;> simp

private theorem content_current_save (limit : UInt64) (record : TelemetryRecord) (files : Files) :
    ((save limit record files).find? currentPath).getD [] =
      (if rotates limit files then [] else (files.find? currentPath).getD []) ++
        if appends limit record files then record.encode else [] := by
  rw [find?_current_save]
  cases appends limit record files <;> cases rotates limit files <;> simp

/-! ### Where the records of saves are -/

/-- A save: what is recorded, and the paths that refuse to be written meanwhile. -/
structure Save where
  snapshot : Snapshot
  counters : DeviceTable UInt8
  refusing : List String

/-- The record of a save. -/
def Save.record (s : Save) : TelemetryRecord := .ofSnapshot s.snapshot s.counters

/-- What became of a save. -/
structure Outcome where
  /-- The current file took the place of the previous one. -/
  rotated : Bool
  /-- The record was added to the current file. -/
  appended : Bool

/-- The numbers of the saves whose records were added, by the place where they are. -/
structure Filing where
  /-- In previous files that another one has replaced. -/
  replaced : List Nat
  /-- In the previous file. -/
  previous : List Nat
  /-- In the current file. -/
  current : List Nat

namespace Filing

/-- No records yet. -/
def start : Filing := ⟨[], [], []⟩

/-- Take in what became of the save with number `n`. -/
def note (n : Nat) (outcome : Outcome) (filing : Filing) : Filing :=
  let kept := if outcome.rotated then ⟨filing.replaced ++ filing.previous, filing.current, []⟩ else filing
  if outcome.appended then { kept with current := kept.current ++ [n] } else kept

/-- Where the records are after saves that ended in these ways. -/
def of (outcomes : List Outcome) : Filing :=
  outcomes.zipIdx.foldl (fun filing entry => filing.note entry.2 entry.1) start

/-- The numbers of all records that were added. -/
def added (filing : Filing) : List Nat := filing.replaced ++ filing.previous ++ filing.current

/-- The save with number `n` added its record. -/
def appendedAt (outcomes : List Outcome) (n : Nat) : Bool := outcomes[n]?.any Outcome.appended

/-- The save with number `n` put the current file aside. -/
def rotatedAt (outcomes : List Outcome) (n : Nat) : Bool := outcomes[n]?.any Outcome.rotated

variable {outcomes : List Outcome}

private theorem of_concat (outcomes : List Outcome) (outcome : Outcome) :
    of (outcomes ++ [outcome]) = (of outcomes).note outcomes.length outcome := by
  rw [of, List.zipIdx_append, List.foldl_append, Nat.zero_add]
  rfl

private theorem replaced_note (n : Nat) (outcome : Outcome) (filing : Filing) :
    (filing.note n outcome).replaced =
      if outcome.rotated then filing.replaced ++ filing.previous else filing.replaced := by
  obtain ⟨rotated, appended⟩ := outcome
  cases rotated <;> cases appended <;> rfl

private theorem previous_note (n : Nat) (outcome : Outcome) (filing : Filing) :
    (filing.note n outcome).previous = if outcome.rotated then filing.current else filing.previous := by
  obtain ⟨rotated, appended⟩ := outcome
  cases rotated <;> cases appended <;> rfl

private theorem current_note (n : Nat) (outcome : Outcome) (filing : Filing) :
    (filing.note n outcome).current =
      (if outcome.rotated then [] else filing.current) ++ if outcome.appended then [n] else [] := by
  obtain ⟨rotated, appended⟩ := outcome
  cases rotated <;> cases appended <;> simp [note]

private theorem added_note (n : Nat) (outcome : Outcome) (filing : Filing) :
    (filing.note n outcome).added = filing.added ++ if outcome.appended then [n] else [] := by
  rw [added, replaced_note, previous_note, current_note, added]
  cases outcome.rotated <;> simp

/-- The records that were added are those of the saves that added them, in order. -/
private theorem added_of (outcomes : List Outcome) :
    (of outcomes).added = (List.range outcomes.length).filter (appendedAt outcomes) := by
  induction outcomes using List.reverseRecOn with
  | nil => rfl
  | append_singleton outcomes outcome ih =>
    have hearlier : (List.range outcomes.length).filter (appendedAt (outcomes ++ [outcome])) =
        (List.range outcomes.length).filter (appendedAt outcomes) := by
      apply List.filter_congr
      intro n hn
      rw [appendedAt, appendedAt, List.getElem?_append_left (List.mem_range.1 hn)]
    have hlast : appendedAt (outcomes ++ [outcome]) outcomes.length = outcome.appended := by
      rw [appendedAt, List.getElem?_concat_length]
      rfl
    rw [of_concat, added_note, ih, List.length_append, List.length_singleton, List.range_succ, List.filter_append,
      hearlier, List.filter_cons, List.filter_nil, hlast]

private theorem lt_of_mem_added {n : Nat} (h : n ∈ (of outcomes).added) : n < outcomes.length := by
  rw [added_of, List.mem_filter, List.mem_range] at h
  exact h.1

private theorem mem_added_of_previous {n : Nat} {filing : Filing} (h : n ∈ filing.previous) : n ∈ filing.added :=
  List.mem_append_left _ (List.mem_append_right _ h)

private theorem mem_added_of_current {n : Nat} {filing : Filing} (h : n ∈ filing.current) : n ∈ filing.added :=
  List.mem_append_right _ h

private theorem mem_added_of_kept {n : Nat} {filing : Filing} (h : n ∈ filing.previous ++ filing.current) :
    n ∈ filing.added :=
  (List.mem_append.1 h).elim mem_added_of_previous mem_added_of_current

private theorem pairwise_lt_kept (outcomes : List Outcome) :
    ((of outcomes).previous ++ (of outcomes).current).Pairwise (· < ·) := by
  have hsorted : (of outcomes).added.Pairwise (· < ·) := by
    rw [added_of]
    exact List.Pairwise.filter _ List.pairwise_lt_range
  rw [added, List.append_assoc] at hsorted
  exact (List.pairwise_append.1 hsorted).2.1

/-- A record is in neither file only if it was never added or is gone. -/
private theorem not_appended_or_mem_replaced {n : Nat} (hn : n < outcomes.length)
    (hmissing : n ∉ (of outcomes).previous ++ (of outcomes).current) :
    appendedAt outcomes n = false ∨ n ∈ (of outcomes).replaced := by
  cases happended : appendedAt outcomes n with
  | false => exact Or.inl rfl
  | true =>
    have hmem : n ∈ (of outcomes).added := by
      rw [added_of, List.mem_filter, List.mem_range]
      exact ⟨hn, happended⟩
    rw [added, List.append_assoc] at hmem
    exact Or.inr ((List.mem_append.1 hmem).resolve_right hmissing)

/-- A record is gone only if it stood in the previous file when a later save put the current file in its place. -/
private theorem exists_rotated_of_mem_replaced {n : Nat} (h : n ∈ (of outcomes).replaced) :
    ∃ j, n < j ∧ j < outcomes.length ∧ rotatedAt outcomes j = true ∧ n ∈ (of (outcomes.take j)).previous := by
  induction outcomes using List.reverseRecOn with
  | nil => cases h
  | append_singleton outcomes outcome ih =>
    have hlater : n ∈ (of outcomes).replaced ∨ (outcome.rotated = true ∧ n ∈ (of outcomes).previous) := by
      rw [of_concat, replaced_note] at h
      split at h
      · rename_i hrotated
        exact (List.mem_append.1 h).imp_right fun hprevious => ⟨hrotated, hprevious⟩
      · exact Or.inl h
    rcases hlater with hreplaced | ⟨hrotated, hprevious⟩
    · -- It was gone before the last save, which does not change what the earlier ones did.
      obtain ⟨j, hnj, hj, hrotated, hprevious⟩ := ih hreplaced
      refine ⟨j, hnj, by simp; omega, ?_, ?_⟩
      · rw [rotatedAt, List.getElem?_append_left hj]
        exact hrotated
      · rw [List.take_append_of_le_length (Nat.le_of_lt hj)]
        exact hprevious
    · refine ⟨outcomes.length, lt_of_mem_added (mem_added_of_previous hprevious), by simp, ?_, ?_⟩
      · rw [rotatedAt, List.getElem?_concat_length]
        exact hrotated
      · rw [List.take_left]
        exact hprevious

end Filing

/-! ### Records as bytes -/

/-- Records one after the other. -/
def bytesOf (records : List TelemetryRecord) : Bytes := records.flatMap TelemetryRecord.encode

/-- The records with given numbers. -/
def numbered (records : List TelemetryRecord) (numbers : List Nat) : List TelemetryRecord :=
  numbers.filterMap fun n => records[n]?

private theorem length_bytesOf (records : List TelemetryRecord) : (bytesOf records).length = 32 * records.length := by
  induction records with
  | nil => rfl
  | cons record rest ih =>
    rw [bytesOf, List.flatMap_cons, List.length_append, TelemetryRecord.length_encode, ← bytesOf, ih, List.length_cons,
      TelemetryRecord.length]
    omega

theorem bytesOf_append (records more : List TelemetryRecord) :
    bytesOf (records ++ more) = bytesOf records ++ bytesOf more :=
  List.flatMap_append

private theorem numbered_concat {records : List TelemetryRecord} {numbers : List Nat} (record : TelemetryRecord)
    (h : ∀ n ∈ numbers, n < records.length) : numbered (records ++ [record]) numbers = numbered records numbers := by
  apply List.filterMap_congr
  intro n hn
  exact List.getElem?_append_left (h n hn)

private theorem numbered_last (records : List TelemetryRecord) (record : TelemetryRecord) :
    numbered (records ++ [record]) [records.length] = [record] := by
  rw [numbered, List.filterMap_cons_some List.getElem?_concat_length]
  rfl

private theorem length_numbered {records : List TelemetryRecord} {numbers : List Nat}
    (h : ∀ n ∈ numbers, n < records.length) : (numbered records numbers).length = numbers.length := by
  induction numbers with
  | nil => rfl
  | cons n rest ih =>
    have hget := List.getElem?_eq_getElem (h n List.mem_cons_self)
    rw [numbered, List.filterMap_cons_some hget, List.length_cons, List.length_cons]
    exact congrArg (· + 1) (ih fun m hm => h m (List.mem_cons_of_mem n hm))

private theorem numbered_range (records : List TelemetryRecord) :
    numbered records (List.range records.length) = records := by
  induction records using List.reverseRecOn with
  | nil => rfl
  | append_singleton records record ih =>
    have hearlier : numbered (records ++ [record]) (List.range records.length) =
        numbered records (List.range records.length) :=
      numbered_concat record fun n hn => List.mem_range.1 hn
    rw [List.length_append, List.length_singleton, List.range_succ, numbered, List.filterMap_append, ← numbered,
      ← numbered, hearlier, numbered_last, ih]

/-! ### The files hold what is filed -/

/-- The saves of these records ended in these ways, and the two files hold the records that are filed there. -/
structure Holds (records : List TelemetryRecord) (outcomes : List Outcome) (files : Files) : Prop where
  length : outcomes.length = records.length
  previous : (files.find? previousPath).getD [] = bytesOf (numbered records (Filing.of outcomes).previous)
  current : (files.find? currentPath).getD [] = bytesOf (numbered records (Filing.of outcomes).current)

section

variable {records : List TelemetryRecord} {outcomes : List Outcome} {files : Files} {limit : UInt64}

private theorem Holds.lt_of_mem_previous (h : Holds records outcomes files) {n : Nat}
    (hn : n ∈ (Filing.of outcomes).previous) :
    n < records.length :=
  h.length ▸ Filing.lt_of_mem_added (Filing.mem_added_of_previous hn)

private theorem Holds.lt_of_mem_current (h : Holds records outcomes files) {n : Nat}
    (hn : n ∈ (Filing.of outcomes).current) :
    n < records.length :=
  h.length ▸ Filing.lt_of_mem_added (Filing.mem_added_of_current hn)

/-- A save moves bytes as it moves numbers. -/
theorem Holds.save (h : Holds records outcomes files) (limit : UInt64) (record : TelemetryRecord) :
    Holds (records ++ [record]) (outcomes ++ [⟨rotates limit files, appends limit record files⟩])
      (TelemetryArchive.save limit record files) := by
  have hprevious : numbered (records ++ [record]) (Filing.of outcomes).previous =
      numbered records (Filing.of outcomes).previous :=
    numbered_concat record fun _ => h.lt_of_mem_previous
  have hcurrent : numbered (records ++ [record]) (Filing.of outcomes).current =
      numbered records (Filing.of outcomes).current :=
    numbered_concat record fun _ => h.lt_of_mem_current
  have hlast : numbered (records ++ [record]) [outcomes.length] = [record] :=
    h.length ▸ numbered_last records record
  constructor
  · rw [List.length_append, List.length_append, h.length]
    rfl
  · rw [find?_previous_save, Filing.of_concat, Filing.previous_note]
    cases rotates limit files with
    | false => exact h.previous.trans (congrArg bytesOf hprevious.symm)
    | true => exact h.current.trans (congrArg bytesOf hcurrent.symm)
  · -- What is left of the current file, with the record behind it if that could be added.
    have hkept : (if rotates limit files then [] else (files.find? currentPath).getD []) =
        bytesOf (numbered (records ++ [record])
          (if rotates limit files then [] else (Filing.of outcomes).current)) := by
      cases rotates limit files with
      | false => exact h.current.trans (congrArg bytesOf hcurrent.symm)
      | true => rfl
    have hadded : (if appends limit record files then record.encode else []) =
        bytesOf (numbered (records ++ [record]) (if appends limit record files then [outcomes.length] else [])) := by
      cases appends limit record files with
      | false => rfl
      | true =>
        rw [if_pos rfl, if_pos rfl, hlast]
        exact (List.append_nil _).symm
    rw [content_current_save, hkept, hadded, ← bytesOf_append, Filing.of_concat, Filing.current_note, numbered,
      numbered, numbered, ← List.filterMap_append]

private theorem Holds.length_current (h : Holds records outcomes files) :
    ((files.find? currentPath).getD []).length = 32 * (Filing.of outcomes).current.length := by
  rw [h.current, length_bytesOf, length_numbered fun _ => h.lt_of_mem_current]

/-- A current file that is not full is short of the limit, unless it holds nothing. -/
private theorem Holds.current_of_not_full (h : Holds records outcomes files) (hroom : isFull limit files = false) :
    (Filing.of outcomes).current = [] ∨ 32 * (Filing.of outcomes).current.length < limit.toNat := by
  have hbytes := h.length_current
  cases hfile : files.find? currentPath with
  | none =>
    rw [hfile, Option.getD_none, List.length_nil] at hbytes
    exact Or.inl (List.eq_nil_of_length_eq_zero (by omega))
  | some content =>
    rw [hfile, Option.getD_some] at hbytes
    refine Or.inr (Nat.not_le.1 fun hle => ?_)
    rw [isFull_iff.2 ⟨content, hfile, hbytes ▸ hle⟩] at hroom
    cases hroom

/-! ### Saves that nothing refuses -/

/-- What holds of the two files as long as no save was refused. -/
structure Unbroken (limit : UInt64) (outcomes : List Outcome) (files : Files) : Prop where
  added : (Filing.of outcomes).added = List.range outcomes.length
  current_ne_nil : outcomes ≠ [] → (Filing.of outcomes).current ≠ []
  length_current_le : 32 * (Filing.of outcomes).current.length ≤ max limit.toNat 1 + 31
  previous :
    (files.find? previousPath = none ∧ (Filing.of outcomes).previous = [] ∧ (Filing.of outcomes).replaced = []) ∨
    ((files.find? previousPath).isSome ∧ limit.toNat ≤ 32 * (Filing.of outcomes).previous.length)

theorem Unbroken.save (hu : Unbroken limit outcomes files) (h : Holds records outcomes files)
    (record : TelemetryRecord) (hcurrent : files.refuses currentPath = false)
    (hprevious : files.refuses previousPath = false) :
    Unbroken limit (outcomes ++ [⟨rotates limit files, appends limit record files⟩])
      (TelemetryArchive.save limit record files) := by
  have happends : appends limit record files = true := by
    rw [appends_eq, hcurrent]
    rfl
  have hrotates : rotates limit files = isFull limit files := by
    rw [rotates_eq, hprevious, Bool.not_false, Bool.and_true]
  constructor
  · rw [Filing.of_concat, Filing.added_note, hu.added, happends, List.length_append, List.length_singleton,
      List.range_succ]
    rfl
  · intro _
    rw [Filing.of_concat, Filing.current_note, happends]
    simp
  · rw [Filing.of_concat, Filing.current_note, happends, hrotates]
    cases hfull : isFull limit files with
    | true =>
      -- The record is the first one of a new file.
      simp only [if_true, List.nil_append, List.length_singleton]
      omega
    | false =>
      simp only [Bool.false_eq_true, if_false, if_true, List.length_append, List.length_singleton]
      rcases h.current_of_not_full hfull with hempty | hroom
      · rw [hempty, List.length_nil]
        omega
      · omega
  · rw [find?_previous_save, Filing.of_concat, Filing.previous_note, Filing.replaced_note, hrotates]
    cases hfull : isFull limit files with
    | false => exact hu.previous
    | true =>
      obtain ⟨content, hcontent, hle⟩ := isFull_iff.1 hfull
      have hbytes := h.length_current
      rw [hcontent, Option.getD_some] at hbytes
      rw [if_pos rfl, if_pos rfl, hcontent]
      exact Or.inr ⟨rfl, hbytes ▸ hle⟩

/-- The files that saves leave when none was refused: the last records in order. -/
private theorem Unbroken.last_records (hu : Unbroken limit outcomes files) (h : Holds records outcomes files)
    (hne : outcomes ≠ []) :
    ∃ old new : List TelemetryRecord,
      old ++ new <:+ records ∧
      min records.length ((limit.toNat + 31) / 32 + 1) ≤ (old ++ new).length ∧
      files.find? currentPath = some (bytesOf new) ∧
      32 ≤ (bytesOf new).length ∧ (bytesOf new).length ≤ max limit.toNat 1 + 31 ∧
      ((files.find? previousPath = none ∧ old = []) ∨
        (files.find? previousPath = some (bytesOf old) ∧ limit.toNat ≤ (bytesOf old).length)) := by
  obtain ⟨hadded, hnonempty, hroom, hprevious⟩ := hu
  have hone : 1 ≤ (Filing.of outcomes).current.length := List.length_pos_iff.2 (hnonempty hne)
  have hold : (numbered records (Filing.of outcomes).previous).length = (Filing.of outcomes).previous.length :=
    length_numbered fun _ => h.lt_of_mem_previous
  have hnew : (numbered records (Filing.of outcomes).current).length = (Filing.of outcomes).current.length :=
    length_numbered fun _ => h.lt_of_mem_current
  have hall : numbered records (Filing.of outcomes).replaced ++
      (numbered records (Filing.of outcomes).previous ++ numbered records (Filing.of outcomes).current) = records := by
    have hrange : numbered records (Filing.of outcomes).added = records := by
      rw [hadded, h.length, numbered_range]
    rw [Filing.added, List.append_assoc, numbered, List.filterMap_append, List.filterMap_append] at hrange
    exact hrange
  refine ⟨numbered records (Filing.of outcomes).previous, numbered records (Filing.of outcomes).current,
    ⟨_, hall⟩, ?_, ?_, ?_, ?_, ?_⟩
  · rw [List.length_append, hold, hnew]
    rcases hprevious with ⟨-, hold', hgone⟩ | ⟨-, hfull⟩
    · -- Nothing was put aside yet, so no record is gone.
      rw [Filing.added, hgone, hold', List.nil_append, List.nil_append] at hadded
      rw [hadded, List.length_range, h.length]
      omega
    · omega
  · have hcurrent := h.current
    cases hfile : files.find? currentPath with
    | none =>
      have hempty := h.length_current
      rw [hfile, Option.getD_none, List.length_nil] at hempty
      omega
    | some content =>
      rw [hfile, Option.getD_some] at hcurrent
      rw [hcurrent]
  · rw [length_bytesOf, hnew]
    omega
  · rw [length_bytesOf, hnew]
    exact hroom
  · rcases hprevious with ⟨hnone, hempty, -⟩ | ⟨hsome, hfull⟩
    · exact Or.inl ⟨hnone, by rw [hempty]; rfl⟩
    · obtain ⟨content, hfile⟩ := Option.isSome_iff_exists.1 hsome
      have hcontent := h.previous
      rw [hfile, Option.getD_some] at hcontent
      rw [length_bytesOf, hold, hfile, hcontent]
      exact Or.inr ⟨rfl, hfull⟩

end

end TelemetryArchive

namespace TelemetryTask

open TelemetryArchive

/-- Carry out a save. -/
def perform (save : Save) (state : Files × TelemetryTask) : Files × TelemetryTask :=
  execute save.snapshot save.counters { state.1 with refusing := save.refusing } state.2

/-- The files and the task after saves in order. -/
def after (saves : List Save) (state : Files × TelemetryTask) : Files × TelemetryTask :=
  saves.foldl (fun state save => perform save state) state

/-- What becomes of a save. -/
def outcome (save : Save) (state : Files × TelemetryTask) : Outcome :=
  let files : Files := { state.1 with refusing := save.refusing }
  ⟨rotates state.2.limit files, appends state.2.limit save.record files⟩

/-- What becomes of saves in order. -/
def outcomes : List Save → Files × TelemetryTask → List Outcome
  | [], _ => []
  | save :: rest, state => outcome save state :: outcomes rest (perform save state)

/-- Where the records of saves are. -/
def filing (saves : List Save) (state : Files × TelemetryTask) : Filing := .of (outcomes saves state)

variable {saves : List Save} {state : Files × TelemetryTask}

theorem after_concat (saves : List Save) (save : Save) (state : Files × TelemetryTask) :
    after (saves ++ [save]) state = perform save (after saves state) := by
  rw [after, List.foldl_append]
  rfl

private theorem limit_after (saves : List Save) (state : Files × TelemetryTask) :
    (after saves state).2.limit = state.2.limit := by
  induction saves using List.reverseRecOn with
  | nil => rfl
  | append_singleton saves save ih =>
    rw [after_concat]
    exact ih

private theorem outcomes_concat (saves : List Save) (save : Save) (state : Files × TelemetryTask) :
    outcomes (saves ++ [save]) state = outcomes saves state ++ [outcome save (after saves state)] := by
  induction saves generalizing state with
  | nil => rfl
  | cons first rest ih => exact congrArg (outcome first state :: ·) (ih (perform first state))

@[simp]
theorem length_outcomes (saves : List Save) (state : Files × TelemetryTask) :
    (outcomes saves state).length = saves.length := by
  induction saves generalizing state with
  | nil => rfl
  | cons first rest ih => exact congrArg (· + 1) (ih (perform first state))

private theorem outcomes_take (saves : List Save) (state : Files × TelemetryTask) (j : Nat) :
    outcomes (saves.take j) state = (outcomes saves state).take j := by
  induction saves generalizing state j with
  | nil => simp [outcomes]
  | cons first rest ih =>
    cases j with
    | zero => rfl
    | succ j => exact congrArg (outcome first state :: ·) (ih (perform first state) j)

private theorem holds_after (hcurrent : state.1.find? currentPath = none)
    (hprevious : state.1.find? previousPath = none)
    (saves : List Save) : Holds (saves.map Save.record) (outcomes saves state) (after saves state).1 := by
  induction saves using List.reverseRecOn with
  | nil =>
    constructor
    · rfl
    · exact congrArg (Option.getD · []) hprevious
    · exact congrArg (Option.getD · []) hcurrent
  | append_singleton saves save ih =>
    -- Other paths may refuse now, but the files are those that the saves before have left.
    have hfiles : Holds (saves.map Save.record) (outcomes saves state)
        { (after saves state).1 with refusing := save.refusing } := ⟨ih.length, ih.previous, ih.current⟩
    rw [after_concat, outcomes_concat, List.map_append]
    exact hfiles.save (after saves state).2.limit save.record

/-- As long as neither file refuses to be written, every record is added and every full file is put aside. -/
private theorem unbroken_after (hcurrent : state.1.find? currentPath = none)
    (hprevious : state.1.find? previousPath = none)
    (h : ∀ save ∈ saves, currentPath ∉ save.refusing ∧ previousPath ∉ save.refusing) :
    Unbroken state.2.limit (outcomes saves state) (after saves state).1 := by
  induction saves using List.reverseRecOn with
  | nil => exact ⟨rfl, fun hne => absurd rfl hne, Nat.zero_le _, Or.inl ⟨hprevious, rfl, rfl⟩⟩
  | append_singleton saves save ih =>
    have hearlier := ih fun s hs => h s (List.mem_append_left _ hs)
    obtain ⟨hfree, hfree'⟩ := h save (by simp)
    have hheld := holds_after hcurrent hprevious saves
    rw [← limit_after saves state] at hearlier ⊢
    have hfiles : Unbroken (after saves state).2.limit (outcomes saves state)
        { (after saves state).1 with refusing := save.refusing } :=
      ⟨hearlier.added, hearlier.current_ne_nil, hearlier.length_current_le, hearlier.previous⟩
    have hsave := hfiles.save ⟨hheld.length, hheld.previous, hheld.current⟩ save.record
      (by simpa [Files.refuses] using hfree) (by simpa [Files.refuses] using hfree')
    rw [after_concat, outcomes_concat]
    exact hsave

/-- Saves of a task that finds neither file.  If neither file refuses to be written, the previous and the current file
hold the last records in order, at least as many as fill a file and one more, if there are so many: the current file
one record at least and no more than it takes to reach the limit, the previous file, if there is one, as many as it
takes at least.  Whatever is refused, the files hold whole records in the order of their saves, each once, and those
of the previous file are older than those of the current one; and a record is missing only if it could not be added, or
if it stood in the previous file when a later save put the current file in its place. -/
theorem keeps_records_in_order (task : TelemetryTask) (files : Files) (saves : List Save)
    (hcurrent : files.find? currentPath = none) (hprevious : files.find? previousPath = none) :
    let kept := (after saves (files, task)).1
    let records := saves.map Save.record
    let ends := outcomes saves (files, task)
    let filed := filing saves (files, task)
    (saves ≠ [] → (∀ save ∈ saves, currentPath ∉ save.refusing ∧ previousPath ∉ save.refusing) →
      ∃ old new : List TelemetryRecord,
        old ++ new <:+ records ∧
        min saves.length ((task.limit.toNat + 31) / 32 + 1) ≤ (old ++ new).length ∧
        kept.find? currentPath = some (bytesOf new) ∧
        32 ≤ (bytesOf new).length ∧ (bytesOf new).length ≤ max task.limit.toNat 1 + 31 ∧
        ((kept.find? previousPath = none ∧ old = []) ∨
          (kept.find? previousPath = some (bytesOf old) ∧ task.limit.toNat ≤ (bytesOf old).length))) ∧
    (kept.find? previousPath).getD [] = bytesOf (numbered records filed.previous) ∧
    (kept.find? currentPath).getD [] = bytesOf (numbered records filed.current) ∧
    (filed.previous ++ filed.current).Pairwise (· < ·) ∧
    (∀ n ∈ filed.previous ++ filed.current, n < saves.length) ∧
    ∀ n < saves.length, n ∉ filed.previous ++ filed.current → Filing.appendedAt ends n = false ∨
      ∃ j, n < j ∧ j < saves.length ∧ Filing.rotatedAt ends j = true ∧
        n ∈ (filing (saves.take j) (files, task)).previous := by
  intro kept records ends filed
  have hholds : Holds records ends kept := holds_after hcurrent hprevious saves
  have hlength : ends.length = saves.length := length_outcomes saves (files, task)
  rw [← hlength]
  refine ⟨?_, hholds.previous, hholds.current, Filing.pairwise_lt_kept ends, ?_, ?_⟩
  · intro hne hfree
    have hunbroken : Unbroken task.limit ends kept := @unbroken_after saves (files, task) hcurrent hprevious hfree
    have hends : ends ≠ [] := fun h => hne (List.eq_nil_of_length_eq_zero (by rw [← hlength, h]; rfl))
    rw [hholds.length]
    exact hunbroken.last_records hholds hends
  · intro n hn
    exact Filing.lt_of_mem_added (Filing.mem_added_of_kept hn)
  · intro n hn hmissing
    refine (Filing.not_appended_or_mem_replaced hn hmissing).imp_right fun hreplaced => ?_
    obtain ⟨j, hnj, hj, hrotated, hstood⟩ := Filing.exists_rotated_of_mem_replaced hreplaced
    refine ⟨j, hnj, hj, hrotated, ?_⟩
    rw [filing, outcomes_take]
    exact hstood

theorem keeps_records_in_order_of_five :
    let save (minutes : UInt64) : Save :=
      ⟨{ Snapshot.initial with time := .ofMillis (60000 * minutes) }, .ofFn fun _ => 0, []⟩
    let saves := [save 0, save 1, save 2, save 3, save 4]
    let start : Files × TelemetryTask := (.empty, ⟨none, .ofMillis 60000, 33⟩)
    start.1.find? currentPath = none ∧ start.1.find? previousPath = none ∧ saves ≠ [] ∧
      (∀ save ∈ saves, currentPath ∉ save.refusing ∧ previousPath ∉ save.refusing) ∧
      ∃ old new : List TelemetryRecord, old ++ new <:+ saves.map Save.record ∧ 3 ≤ (old ++ new).length ∧
        (after saves start).1.find? currentPath = some (bytesOf new) ∧
        32 ≤ (bytesOf new).length ∧ (bytesOf new).length ≤ 64 := by
  intro save saves start
  have hfree : ∀ save ∈ saves, currentPath ∉ save.refusing ∧ previousPath ∉ save.refusing := by
    simp [saves, save]
  obtain ⟨old, new, hsuffix, hcount, hcurrent, hone, hroom, -⟩ :=
    (keeps_records_in_order start.2 start.1 saves rfl rfl).1 (by simp [saves]) hfree
  have hthree : 3 ≤ min 5 (((33 : UInt64).toNat + 31) / 32 + 1) := by decide
  exact ⟨rfl, rfl, by simp [saves], hfree, old, new, hsuffix, Nat.le_trans hthree hcount, hcurrent, hone, hroom⟩

end TelemetryTask

end Spacecraft
