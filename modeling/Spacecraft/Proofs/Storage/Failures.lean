import Spacecraft.Storage.Files

/-!
# File operations that fail

Operations follow one another on files in memory.  A write or an append fails where its path refuses to be written, a
move where its target does or its source is missing, and nothing else fails (`Fails`).  All of this is looked at before
the first change, so that an operation that fails changes nothing (`perform_of_fails`), and a run ends as it would have
without the operations that failed in it (`failures_leave_no_trace`).
-/

namespace Spacecraft

namespace Files

/-- An operation on files in memory. -/
inductive Operation where
  | write (path : String) (content : Bytes)
  | append (path : String) (content : Bytes)
  | rename (source target : String)
  | insert (path : String) (content : Bytes)
  | erase (path : String)
  | refuse (path : String)
  | heal (path : String)
deriving DecidableEq

namespace Operation

/-- The answer to an operation and the files after it. -/
def perform : Operation → Files → Except FileError Unit × Files
  | write path content, files => files.write path content
  | append path content, files => files.append path content
  | rename source target, files => files.rename source target
  | insert path content, files => (.ok (), files.insert path content)
  | erase path, files => (.ok (), files.erase path)
  | refuse path, files => (.ok (), files.refuse path)
  | heal path, files => (.ok (), files.heal path)

/-- What makes an operation fail. -/
def Fails (files : Files) : Operation → Prop
  | write path _ => files.refuses path = true
  | append path _ => files.refuses path = true
  | rename source target => files.refuses target = true ∨ files.find? source = none
  | insert _ _ => False
  | erase _ => False
  | refuse _ => False
  | heal _ => False

end Operation

/-- The files after operations. -/
def after (files : Files) (ops : List Operation) : Files := ops.foldl (fun files op => (op.perform files).2) files

/-- Of operations that follow one another, those that succeed. -/
def carriedOut (files : Files) : List Operation → List Operation
  | [] => []
  | op :: ops =>
    if (op.perform files).1.toBool then op :: carriedOut (op.perform files).2 ops
    else carriedOut (op.perform files).2 ops

/-! ### One operation -/

section

variable (files : Files) (path other : String)

@[simp]
theorem refuses_refuse : (files.refuse path).refuses other = (other == path || files.refuses other) := rfl

@[simp]
theorem refuses_heal : (files.heal path).refuses other = (other != path && files.refuses other) := by
  unfold refuses heal
  rw [Bool.eq_iff_iff]
  simp [and_comm]

end

namespace Operation

variable {files : Files} {op : Operation}

private theorem fails_iff : (op.perform files).1.toBool = false ↔ op.Fails files := by
  cases op with
  | write path content =>
    have hanswer := files.toBool_write path content
    simp [perform, Fails, hanswer]
  | append path content =>
    have hanswer := files.toBool_append path content
    simp [perform, Fails, hanswer]
  | rename source target =>
    have hanswer := files.toBool_rename source target
    cases hsource : files.find? source <;> simp [perform, Fails, hanswer, hsource]
  | insert | erase | refuse | heal => simp [perform, Fails, Except.toBool]

/-- An operation that fails leaves everything as it was. -/
theorem perform_of_fails (h : op.Fails files) : (op.perform files).2 = files := by
  cases op with
  | write path content =>
    have hrefuses : files.refuses path = true := h
    simp [perform, Files.write, hrefuses]
  | append path content =>
    have hrefuses : files.refuses path = true := h
    simp [perform, Files.append, hrefuses]
  | rename source target =>
    -- The target is asked first; what is missing is noticed before anything is taken away.
    by_cases hrefuses : files.refuses target = true
    · simp [perform, Files.rename, hrefuses]
    · have hmissing : files.find? source = none := h.resolve_left hrefuses
      simp [perform, Files.rename, hrefuses, hmissing]
  | insert | erase | refuse | heal => exact h.elim

/-- Only an order to refuse or to heal a path changes whether it refuses. -/
private theorem refuses_perform (path : String) :
    (op.perform files).2.refuses path = true ↔
      op = refuse path ∨ (files.refuses path = true ∧ op ≠ heal path) := by
  cases op with
  | write other content =>
    have hsame := files.refuses_write other content
    simp [perform, hsame]
  | append other content =>
    have hsame := (files.sameBut_append content (List.mem_singleton_self other)).refuses
    simp [perform, hsame]
  | rename source target =>
    have hsource : source ∈ [source, target] := List.mem_cons_self
    have htarget : target ∈ [source, target] := List.mem_cons_of_mem source (List.mem_singleton_self target)
    have hsame := (files.sameBut_rename hsource htarget).refuses
    simp [perform, hsame]
  | insert | erase =>
    simp only [reduceCtorEq, false_or, ne_eq, not_false_eq_true, and_true]
    exact Iff.rfl
  | refuse other =>
    simp only [perform, refuses_refuse, beq_iff_eq, Bool.or_eq_true, refuse.injEq, reduceCtorEq, ne_eq,
      not_false_eq_true, and_true]
    rw [eq_comm]
  | heal other =>
    simp only [perform, refuses_heal, bne_iff_ne, Bool.and_eq_true, reduceCtorEq, false_or, heal.injEq, ne_eq]
    rw [eq_comm, and_comm]

end Operation

/-! ### Runs -/

section

variable {files : Files} {op : Operation} (ops : List Operation)

private theorem carriedOut_cons_of_fails (h : op.Fails files) :
    files.carriedOut (op :: ops) = files.carriedOut ops := by
  have hanswer := Operation.fails_iff.2 h
  rw [carriedOut, hanswer, if_neg Bool.false_ne_true, Operation.perform_of_fails h]

private theorem carriedOut_cons_of_succeeds (h : ¬ op.Fails files) :
    files.carriedOut (op :: ops) = op :: (op.perform files).2.carriedOut ops := by
  have hanswer : (op.perform files).1.toBool = true := by
    rw [← Bool.not_eq_false]
    exact fun hfails => h (Operation.fails_iff.1 hfails)
  rw [carriedOut, if_pos hanswer]

end

private theorem after_carriedOut (files : Files) (ops : List Operation) :
    files.after (files.carriedOut ops) = files.after ops := by
  induction ops generalizing files with
  | nil => rfl
  | cons op ops ih =>
    have hrest := ih (op.perform files).2
    by_cases hfails : op.Fails files
    · rw [Operation.perform_of_fails hfails] at hrest
      have hsame : files.after (op :: ops) = files.after ops :=
        congrArg (fun files => after files ops) (Operation.perform_of_fails hfails)
      rw [carriedOut_cons_of_fails ops hfails, hrest, hsame]
    · rw [carriedOut_cons_of_succeeds ops hfails]
      exact hrest

/-- What is left of a run succeeds as a whole. -/
private theorem carriedOut_carriedOut (files : Files) (ops : List Operation) :
    files.carriedOut (files.carriedOut ops) = files.carriedOut ops := by
  induction ops generalizing files with
  | nil => rfl
  | cons op ops ih =>
    by_cases hfails : op.Fails files
    · rw [carriedOut_cons_of_fails ops hfails, ih]
    · rw [carriedOut_cons_of_succeeds ops hfails, carriedOut_cons_of_succeeds _ hfails, ih]

/-- A path refuses to be written since it was last told to, until it is healed. -/
private theorem refuses_after_iff (files : Files) (ops : List Operation) (path : String) :
    (files.after ops).refuses path = true ↔
      (∃ before later, ops = before ++ .refuse path :: later ∧ .heal path ∉ later) ∨
        (files.refuses path = true ∧ .heal path ∉ ops) := by
  induction ops generalizing files with
  | nil => simp [after]
  | cons op ops ih =>
    have hsplit : (∃ before later, op :: ops = before ++ .refuse path :: later ∧ .heal path ∉ later) ↔
        (op = .refuse path ∧ .heal path ∉ ops) ∨
          ∃ before later, ops = before ++ .refuse path :: later ∧ .heal path ∉ later := by
      constructor
      · rintro ⟨before, later, hops, hlater⟩
        cases before with
        | nil =>
          obtain ⟨rfl, rfl⟩ := List.cons.inj hops
          exact .inl ⟨rfl, hlater⟩
        | cons first before =>
          obtain ⟨-, rfl⟩ := List.cons.inj hops
          exact .inr ⟨before, later, rfl, hlater⟩
      · rintro (⟨rfl, hops⟩ | ⟨before, later, rfl, hlater⟩)
        · exact ⟨[], ops, rfl, hops⟩
        · exact ⟨op :: before, later, rfl, hlater⟩
    have hstep : (files.after (op :: ops)).refuses path = ((op.perform files).2.after ops).refuses path := rfl
    rw [hstep, ih, hsplit, Operation.refuses_perform, List.mem_cons, not_or]
    constructor
    · rintro (hlast | ⟨rfl | ⟨hrefuses, hop⟩, hops⟩)
      · exact .inl (.inr hlast)
      · exact .inl (.inl ⟨rfl, hops⟩)
      · exact .inr ⟨hrefuses, Ne.symm hop, hops⟩
    · rintro ((⟨rfl, hops⟩ | hlast) | ⟨hrefuses, hop, hops⟩)
      · exact .inr ⟨.inl rfl, hops⟩
      · exact .inl hlast
      · exact .inr ⟨.inr ⟨hrefuses, Ne.symm hop⟩, hops⟩

/-- On files in any state, and so at any point of a run, an operation fails where its path or target refuses to be
written or the source of a move is missing, and then every file stays as it was.  A run ends like the run of those
operations that succeed in it, none of which fails when the others are left out.  A path refuses where it was told to
and has not been healed since.  A write, an append or a move that succeeds changes only the paths it names: the written
file has the new content, the appended one its old content and the new bytes behind it, and in a move the target gets
what the source held, while the source is gone, unless it is the target. -/
theorem failures_leave_no_trace (files : Files) :
    (∀ op : Operation, ((op.perform files).1.toBool = false ↔ op.Fails files) ∧
      ((op.perform files).1.toBool = false → (op.perform files).2 = files)) ∧
    (∀ ops : List Operation, files.after (files.carriedOut ops) = files.after ops ∧
      files.carriedOut (files.carriedOut ops) = files.carriedOut ops) ∧
    (∀ (ops : List Operation) (path : String), (files.after ops).refuses path = true ↔
      (∃ before later, ops = before ++ .refuse path :: later ∧ .heal path ∉ later) ∨
        (files.refuses path = true ∧ .heal path ∉ ops)) ∧
    (∀ (path : String) (content : Bytes), (files.write path content).1.toBool = true →
      ∀ other, (files.write path content).2.find? other = if other = path then some content else files.find? other) ∧
    (∀ (path : String) (content : Bytes), (files.append path content).1.toBool = true →
      ∀ other, (files.append path content).2.find? other =
        if other = path then some ((files.find? path).getD [] ++ content) else files.find? other) ∧
    ∀ source target : String, (files.rename source target).1.toBool = true →
      ∃ content, files.find? source = some content ∧
        ∀ other, (files.rename source target).2.find? other =
          if other = target then some content else if other = source then none else files.find? other := by
  refine ⟨?_, ?_, files.refuses_after_iff, ?_, ?_, ?_⟩
  · intro op
    exact ⟨Operation.fails_iff, fun hfails => Operation.perform_of_fails (Operation.fails_iff.1 hfails)⟩
  · intro ops
    exact ⟨files.after_carriedOut ops, files.carriedOut_carriedOut ops⟩
  · intro path content hok other
    rw [toBool_write, Bool.not_eq_true'] at hok
    simp [find?_write, hok]
  · intro path content hok other
    rw [toBool_append, Bool.not_eq_true'] at hok
    simp [find?_append, hok]
  · intro source target hok
    have hsource := hok
    rw [toBool_rename, Bool.and_eq_true] at hsource
    obtain ⟨content, hcontent⟩ := Option.isSome_iff_exists.1 hsource.1
    refine ⟨content, hcontent, ?_⟩
    intro other
    rw [find?_rename, if_pos hok, hcontent]

/-- A run in which a write, an append and a move onto a refusing path fail, and a move of a missing file, before the
path is healed. -/
theorem failures_leave_no_trace_in_a_run :
    let files : Files := ⟨[("/a", [1]), ("/b", [2])], []⟩
    let refusing := files.refuse "/b"
    let ops : List Operation :=
      [.refuse "/b", .write "/b" [3], .append "/b" [4], .rename "/a" "/b", .rename "/c" "/d", .append "/a" [5],
        .heal "/b", .rename "/a" "/b", .rename "/b" "/b"]
    ((Operation.rename "/a" "/b").perform refusing).2 = refusing ∧
      files.after [.refuse "/b", .append "/a" [5], .heal "/b", .rename "/a" "/b", .rename "/b" "/b"] =
        files.after ops ∧
      (∀ other, (refusing.write "/a" [6]).2.find? other = if other = "/a" then some [6] else refusing.find? other) ∧
      (∀ other, (files.append "/b" [7]).2.find? other = if other = "/b" then some [2, 7] else files.find? other) ∧
      ∃ content, files.find? "/a" = some content ∧
        ∀ other, (files.rename "/a" "/b").2.find? other =
          if other = "/b" then some content else if other = "/a" then none else files.find? other := by
  intro files refusing ops
  obtain ⟨hfails, -, -, hwrite, -, -⟩ := failures_leave_no_trace refusing
  obtain ⟨-, hrun, -, -, happend, hrename⟩ := failures_leave_no_trace files
  exact ⟨(hfails (.rename "/a" "/b")).2 (by decide), (hrun ops).1, hwrite "/a" [6] (by decide),
    happend "/b" [7] (by decide), hrename "/a" "/b" (by decide)⟩

end Files

end Spacecraft
