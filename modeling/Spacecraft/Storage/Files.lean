import Spacecraft.Storage.Store

/-!
# Files in memory

A store that keeps its files in a list of names and contents, each name at most once as far as look-up can tell.
Paths can be made to refuse writes; a refused operation leaves every file as it was.
-/

namespace Spacecraft

/-- Named files in memory, with the names that refuse to be written. -/
structure Files where
  entries : List (String × Bytes)
  refusing : List String
deriving DecidableEq

namespace Files

/-- No files, nothing refused. -/
def empty : Files := ⟨[], []⟩

instance : Inhabited Files := ⟨empty⟩

/-- The content under a name in a list of named contents. -/
def lookIn (path : String) : List (String × Bytes) → Option Bytes
  | [] => none
  | (name, content) :: rest => if name = path then some content else lookIn path rest

/-- The content of a file, if it is present. -/
def find? (files : Files) (path : String) : Option Bytes :=
  lookIn path files.entries

/-- Take a file away. -/
def erase (path : String) (files : Files) : Files :=
  { files with entries := files.entries.filter (fun entry => entry.1 != path) }

/-- Place a file without asking whether the path refuses writes. -/
def insert (path : String) (content : Bytes) (files : Files) : Files :=
  { files with entries := (path, content) :: (files.erase path).entries }

/-- Let every later write to a path fail. -/
def refuse (path : String) (files : Files) : Files :=
  { files with refusing := path :: files.refusing }

/-- Stop refusing writes to a path. -/
def heal (path : String) (files : Files) : Files :=
  { files with refusing := files.refusing.filter (fun p => p != path) }

/-- The path refuses writes. -/
def refuses (files : Files) (path : String) : Bool :=
  files.refusing.contains path

/-- The whole content of a file. -/
def read (files : Files) (path : String) : Except FileError Bytes :=
  match files.find? path with
  | some content => .ok content
  | none => .error (.missing path)

/-- The number of bytes of a file. -/
def size (files : Files) (path : String) : Except FileError Nat :=
  match files.find? path with
  | some content => .ok content.length
  | none => .error (.missing path)

/-- Create a file or replace its content. -/
def write (path : String) (content : Bytes) (files : Files) : Except FileError Unit × Files :=
  if files.refuses path then (.error (.refused path), files) else (.ok (), files.insert path content)

/-- Add bytes at the end of a file, creating it if needed. -/
def append (path : String) (content : Bytes) (files : Files) : Except FileError Unit × Files :=
  if files.refuses path then (.error (.refused path), files)
  else (.ok (), files.insert path ((files.find? path).getD [] ++ content))

/-- Move a file.  Only the target can refuse; a missing source is noticed after that. -/
def rename (source target : String) (files : Files) : Except FileError Unit × Files :=
  if files.refuses target then (.error (.refused target), files)
  else
    match files.find? source with
    | none => (.error (.missing source), files)
    | some content => (.ok (), (files.erase source).insert target content)

instance : FileStore Files where
  read := read
  write := write
  append := append
  rename := rename
  size := size

@[simp]
theorem find?_empty (path : String) : empty.find? path = none := rfl

private theorem lookIn_filter (path other : String) (entries : List (String × Bytes)) :
    lookIn other (entries.filter (fun entry => entry.1 != path)) =
      if other = path then none else lookIn other entries := by
  induction entries with
  | nil => simp [lookIn]
  | cons entry rest ih =>
    obtain ⟨name, content⟩ := entry
    by_cases hn : name = path
    · subst hn
      by_cases ho : other = name
      · subst ho
        simpa using ih
      · simp [lookIn, ih, ho, Ne.symm ho]
    · by_cases ho : other = path
      · subst ho
        simpa [lookIn, hn] using ih
      · simp [lookIn, hn, ih, ho]

theorem find?_erase (files : Files) (path other : String) :
    (files.erase path).find? other = if other = path then none else files.find? other :=
  lookIn_filter path other files.entries

theorem find?_insert (files : Files) (path other : String) (content : Bytes) :
    (files.insert path content).find? other = if other = path then some content else files.find? other := by
  by_cases ho : other = path
  · simp [find?, insert, lookIn, ho]
  · simpa [find?, insert, erase, lookIn, ho, Ne.symm ho] using lookIn_filter path other files.entries

/-- A write succeeds where the path does not refuse it. -/
theorem toBool_write (files : Files) (path : String) (content : Bytes) :
    (files.write path content).1.toBool = !files.refuses path := by
  unfold write
  cases files.refuses path <;> rfl

theorem refuses_write (files : Files) (path : String) (content : Bytes) :
    (files.write path content).2.refuses = files.refuses := by
  unfold write
  cases files.refuses path <;> rfl

theorem find?_write (files : Files) (path other : String) (content : Bytes) :
    (files.write path content).2.find? other =
      if other = path ∧ files.refuses path = false then some content else files.find? other := by
  unfold write
  cases files.refuses path with
  | true => simp
  | false => simpa using find?_insert files path other content

/-- An append succeeds where the path does not refuse it. -/
theorem toBool_append (files : Files) (path : String) (content : Bytes) :
    (files.append path content).1.toBool = !files.refuses path := by
  unfold append
  cases files.refuses path <;> rfl

theorem find?_append (files : Files) (path other : String) (content : Bytes) :
    (files.append path content).2.find? other =
      if other = path ∧ files.refuses path = false then some ((files.find? path).getD [] ++ content)
      else files.find? other := by
  unfold append
  cases files.refuses path with
  | true => simp
  | false => simpa using find?_insert files path other _

theorem read_eq_ok_iff (files : Files) (path : String) (content : Bytes) :
    files.read path = .ok content ↔ files.find? path = some content := by
  unfold read
  cases files.find? path <;> simp

theorem read_write (files : Files) (path : String) (content : Bytes)
    (h : (files.write path content).1.toBool = true) : (files.write path content).2.read path = .ok content := by
  rw [toBool_write, Bool.not_eq_true'] at h
  rw [read_eq_ok_iff, find?_write, if_pos ⟨rfl, h⟩]

theorem read_append (files : Files) (path : String) (content bytes : Bytes) (hread : files.read path = .ok content)
    (h : (files.append path bytes).1.toBool = true) :
    (files.append path bytes).2.read path = .ok (content ++ bytes) := by
  rw [toBool_append, Bool.not_eq_true'] at h
  rw [read_eq_ok_iff] at hread
  rw [read_eq_ok_iff, find?_append, if_pos ⟨rfl, h⟩, hread, Option.getD_some]

theorem read_append_of_fails (files : Files) (path : String) (bytes : Bytes)
    (h : (files.append path bytes).1.toBool = false) : (files.append path bytes).2.read path = files.read path := by
  rw [toBool_append, Bool.not_eq_false'] at h
  rw [append, if_pos h]

instance : LawfulFileStore Files where
  read_write path content files := files.read_write path content
  read_append path content bytes files := files.read_append path content bytes
  read_append_of_fails path bytes files := files.read_append_of_fails path bytes

/-- A move succeeds where there is something to move and the target does not refuse it. -/
theorem toBool_rename (files : Files) (source target : String) :
    (files.rename source target).1.toBool = ((files.find? source).isSome && !files.refuses target) := by
  unfold rename
  cases files.refuses target with
  | true => simp [Except.toBool]
  | false => cases files.find? source <;> rfl

theorem find?_rename (files : Files) (source target other : String) :
    (files.rename source target).2.find? other =
      if (files.rename source target).1.toBool then
        if other = target then files.find? source else if other = source then none else files.find? other
      else files.find? other := by
  rw [toBool_rename]
  unfold rename
  cases files.refuses target with
  | true => simp
  | false =>
    cases files.find? source with
    | none => rfl
    | some content =>
      show ((files.erase source).insert target content).find? other = _
      rw [find?_insert, find?_erase]
      rfl

/-! ### Other files -/

/-- No files but some differ, and the same paths refuse writes. -/
structure SameBut (touched : List String) (files files' : Files) : Prop where
  find? (path : String) : path ∉ touched → files'.find? path = files.find? path
  refuses : files'.refuses = files.refuses

theorem SameBut.refl (touched : List String) (files : Files) : SameBut touched files files := ⟨fun _ _ => rfl, rfl⟩

theorem SameBut.trans {touched : List String} {files files' files'' : Files} (h : SameBut touched files files')
    (h' : SameBut touched files' files'') : SameBut touched files files'' :=
  ⟨fun path hpath => (h'.find? path hpath).trans (h.find? path hpath), h'.refuses.trans h.refuses⟩

variable {touched : List String}

theorem sameBut_insert (files : Files) {path : String} (content : Bytes) (h : path ∈ touched) :
    SameBut touched files (files.insert path content) where
  find? other hother := by
    have hne : other ≠ path := fun heq => hother (heq ▸ h)
    rw [find?_insert, if_neg hne]
  refuses := rfl

theorem sameBut_write (files : Files) {path : String} (content : Bytes) (h : path ∈ touched) :
    SameBut touched files (files.write path content).2 := by
  unfold write
  cases files.refuses path with
  | true => exact .refl touched files
  | false => exact files.sameBut_insert content h

theorem sameBut_append (files : Files) {path : String} (content : Bytes) (h : path ∈ touched) :
    SameBut touched files (files.append path content).2 := by
  unfold append
  cases files.refuses path with
  | true => exact .refl touched files
  | false => exact files.sameBut_insert _ h

theorem sameBut_rename (files : Files) {source target : String} (hsource : source ∈ touched)
    (htarget : target ∈ touched) : SameBut touched files (files.rename source target).2 := by
  unfold rename
  cases files.refuses target with
  | true => exact .refl touched files
  | false =>
    cases files.find? source with
    | none => exact .refl touched files
    | some content =>
      have herase : SameBut touched files (files.erase source) := by
        refine ⟨fun other hother => ?_, rfl⟩
        have hne : other ≠ source := fun heq => hother (heq ▸ hsource)
        rw [find?_erase, if_neg hne]
      exact herase.trans ((files.erase source).sameBut_insert content htarget)

end Files

end Spacecraft
