import Mathlib.Data.Nat.Fib.Basic
import Spacecraft.Experiment.Fibonacci
import Spacecraft.Storage.Files

/-!
# The terms that a run leaves behind

A run empties the file and appends one term per iteration.  After `k` iterations the experiment holds terms `k` and
`k + 1`, and the file the terms before them (`Reached`, kept by an iteration in `reached_iterate`), so that the file
records the sequence however many terms are asked for (`writes_capped_terms`).  The experiment itself adds words that
stop at the largest one; this is the sequence with its terms capped, since a sum that is too large for a word stays too
large when one of its parts is capped (`term_add_two`).
-/

namespace Spacecraft

namespace Fibonacci

/-- A term of the sequence, at most the largest word. -/
def term (k : Nat) : Nat := min (Nat.fib k) (2 ^ 64 - 1)

/-- The file of the first terms, eight bytes each. -/
def firstTerms (k : Nat) : Bytes := (List.range k).flatMap fun i => LittleEndian.encode 8 (term i)

/-- The experiment once its next term has been appended. -/
def extended (fib : Fibonacci) : Fibonacci :=
  { fib with
    current := fib.next
    next := saturatingAdd fib.current fib.next
    computed := fib.computed + 1 }

section

variable {σ : Type} [FileStore σ]

/-- The experiment and the store after iterations, where `others i` is what happens to the store before iteration
`i`. -/
def afterIterations (others : Nat → σ → σ) (run : Fibonacci × σ) : Nat → Fibonacci × σ
  | 0 => run
  | i + 1 => ((afterIterations others run i).1.iterate (others i (afterIterations others run i).2)).2

/-- The answer of an iteration. -/
def resultOf (others : Nat → σ → σ) (run : Fibonacci × σ) (i : Nat) : IterationResult :=
  ((afterIterations others run i).1.iterate (others i (afterIterations others run i).2)).1

/-- The answers of the first iterations. -/
def results (others : Nat → σ → σ) (run : Fibonacci × σ) (calls : Nat) : List IterationResult :=
  (List.range calls).map (resultOf others run)

/-- The store takes a term when the iteration comes that appends it. -/
def Takes (others : Nat → σ → σ) (run : Fibonacci × σ) (k : Nat) : Prop :=
  (FileStore.append path (LittleEndian.encode 8 (term k)) (others k (afterIterations others run k).2)).1.toBool = true

instance (others : Nat → σ → σ) (run : Fibonacci × σ) (k : Nat) : Decidable (Takes others run k) :=
  inferInstanceAs (Decidable (_ = true))

/-- So many terms have been computed, and they are in the file. -/
structure Reached (n : UInt32) (k : Nat) (fib : Fibonacci) (store : σ) : Prop where
  terms : fib.terms = n
  computed : fib.computed.toNat = k
  current : fib.current.toNat = term k
  next : fib.next.toNat = term (k + 1)
  content : FileStore.read store path = .ok (firstTerms k)

end

/-! ### Terms -/

theorem toNat_saturatingAdd (a b : UInt64) : (saturatingAdd a b).toNat = min (a.toNat + b.toNat) (2 ^ 64 - 1) := by
  rw [saturatingAdd, UInt64.toNat_ofNat']
  omega

theorem term_add_two (k : Nat) : term (k + 2) = min (term k + term (k + 1)) (2 ^ 64 - 1) := by
  rw [term, term, term, Nat.fib_add_two]
  omega

/-- The last term that is smaller than the largest word, and the first that is not. -/
example : term 93 = 12200160415121876738 ∧ term 94 = 18446744073709551615 := by decide

private theorem firstTerms_succ (k : Nat) : firstTerms (k + 1) = firstTerms k ++ LittleEndian.encode 8 (term k) := by
  rw [firstTerms, List.range_succ, List.flatMap_append, List.flatMap_singleton]
  rfl

/-! ### Single iterations -/

section

variable {σ : Type} [FileStore σ] {n : UInt32} {k : Nat} {fib : Fibonacci} {store : σ}

private theorem iterate_of_done (h : fib.terms ≤ fib.computed) : fib.iterate store = (.finished, fib, store) := by
  rw [iterate, if_pos h]

private theorem Reached.le_computed_iff (h : Reached n k fib store) : fib.terms ≤ fib.computed ↔ n.toNat ≤ k := by
  rw [UInt32.le_iff_toNat_le, h.terms, h.computed]

private theorem Reached.of_read_eq (h : Reached n k fib store) {other : σ}
    (hread : FileStore.read other path = FileStore.read store path) : Reached n k fib other :=
  ⟨h.terms, h.computed, h.current, h.next, hread.trans h.content⟩

private theorem Reached.not_done (h : Reached n k fib store) (hk : k < n.toNat) : ¬ fib.terms ≤ fib.computed :=
  fun hdone => Nat.not_le.2 hk (h.le_computed_iff.1 hdone)

private theorem Reached.extended (h : Reached n k fib store) (hk : k < n.toNat) {next : σ}
    (hread : FileStore.read next path = .ok (firstTerms (k + 1))) : Reached n (k + 1) fib.extended next := by
  have hcomputed : (fib.computed + 1).toNat = k + 1 := by
    have hbound := n.toNat_lt
    rw [UInt32.toNat_add, h.computed, UInt32.toNat_one]
    exact Nat.mod_eq_of_lt (by omega)
  have hnext : (saturatingAdd fib.current fib.next).toNat = term (k + 2) := by
    rw [toNat_saturatingAdd, h.current, h.next, term_add_two]
  exact ⟨h.terms, hcomputed, h.next, hnext, hread⟩

private theorem Reached.iterate_of_takes (h : Reached n k fib store) (hk : k < n.toNat)
    (htakes : (FileStore.append path (LittleEndian.encode 8 (term k)) store).1.toBool = true) :
    fib.iterate store =
      (if fib.extended.terms ≤ fib.extended.computed then .finished else .waitForNextCycle, fib.extended,
        (FileStore.append path (LittleEndian.encode 8 (term k)) store).2) := by
  rw [iterate, if_neg (h.not_done hk), h.current]
  rcases hcase : FileStore.append path (LittleEndian.encode 8 (term k)) store with ⟨outcome, next⟩
  rw [hcase] at htakes
  cases outcome with
  | error error => exact absurd htakes Bool.false_ne_true
  | ok _ => rfl

variable [LawfulFileStore σ]

/-- An iteration that the store lets through computes one more term. -/
theorem reached_iterate (h : Reached n k fib store) (hk : k < n.toNat)
    (htakes : (FileStore.append path (LittleEndian.encode 8 (term k)) store).1.toBool = true) :
    (fib.iterate store).1 = (if n.toNat ≤ k + 1 then .finished else .waitForNextCycle) ∧
      Reached n (k + 1) (fib.iterate store).2.1 (fib.iterate store).2.2 := by
  have hread := LawfulFileStore.read_append path (firstTerms k) _ store h.content htakes
  rw [← firstTerms_succ] at hread
  have hreached := h.extended hk hread
  rw [h.iterate_of_takes hk htakes]
  exact ⟨if_congr hreached.le_computed_iff rfl rfl, hreached⟩

/-- An iteration that the store refuses fails and leaves the file alone. -/
private theorem iterate_fails (h : Reached n k fib store) (hk : k < n.toNat)
    (hrefuses : (FileStore.append path (LittleEndian.encode 8 (term k)) store).1.toBool = false) :
    (fib.iterate store).1 = .failure ∧ FileStore.read (fib.iterate store).2.2 path = .ok (firstTerms k) := by
  have hread := LawfulFileStore.read_append_of_fails path _ store hrefuses
  rw [iterate, if_neg (h.not_done hk), h.current]
  rcases hcase : FileStore.append path (LittleEndian.encode 8 (term k)) store with ⟨outcome, next⟩
  rw [hcase] at hread hrefuses
  cases outcome with
  | error error => exact ⟨rfl, hread.trans h.content⟩
  | ok _ => exact absurd hrefuses (Bool.false_ne_true ∘ Eq.symm)

private theorem reached_start (fib : Fibonacci) (h : (FileStore.write path [] store).1.toBool = true) :
    (fib.start store).1 = .success ∧ Reached fib.terms 0 (fib.start store).2.1 (fib.start store).2.2 := by
  have hread := LawfulFileStore.read_write path [] store h
  rw [start]
  rcases hcase : FileStore.write path [] store with ⟨outcome, next⟩
  rw [hcase] at hread h
  cases outcome with
  | error error => exact absurd h Bool.false_ne_true
  | ok _ => exact ⟨rfl, rfl, rfl, rfl, rfl, hread⟩

end

/-! ### Runs -/

section

variable {σ : Type} [FileStore σ] {n : UInt32} {k : Nat} {others : Nat → σ → σ} {run : Fibonacci × σ}

private theorem results_succ (calls : Nat) :
    results others run (calls + 1) = results others run calls ++ [resultOf others run calls] := by
  rw [results, List.range_succ, List.map_append]
  rfl

variable [LawfulFileStore σ]
  (hothers : ∀ i store, FileStore.read (others i store) path = FileStore.read store path)
  (hrun : Reached n 0 run.1 run.2)

include hothers hrun

private theorem reached_afterIterations (hk : k ≤ n.toNat) (htakes : ∀ j < k, Takes others run j) :
    Reached n k (afterIterations others run k).1 (afterIterations others run k).2 := by
  induction k with
  | zero => exact hrun
  | succ k ih =>
    have hreached := ih (Nat.le_of_lt hk) fun j hj => htakes j (Nat.lt_succ_of_lt hj)
    exact (reached_iterate (hreached.of_read_eq (hothers k _)) hk (htakes k (Nat.lt_succ_self k))).2

private theorem resultOf_of_takes (hk : k < n.toNat) (htakes : ∀ j ≤ k, Takes others run j) :
    resultOf others run k = if n.toNat ≤ k + 1 then .finished else .waitForNextCycle := by
  have hreached := reached_afterIterations hothers hrun (Nat.le_of_lt hk) fun j hj => htakes j (Nat.le_of_lt hj)
  exact (reached_iterate (hreached.of_read_eq (hothers k _)) hk (htakes k (Nat.le_refl k))).1

/-- As long as terms are missing, every iteration asks for the next pass. -/
private theorem results_of_takes (hk : k < n.toNat) (htakes : ∀ j < k, Takes others run j) :
    results others run k = List.replicate k .waitForNextCycle := by
  induction k with
  | zero => rfl
  | succ k ih =>
    have hmissing : ¬ n.toNat ≤ k + 1 := Nat.not_le.2 hk
    have hwaits := resultOf_of_takes hothers hrun (Nat.lt_of_succ_lt hk) fun j hj => htakes j (Nat.lt_succ_of_le hj)
    rw [if_neg hmissing] at hwaits
    rw [results_succ, ih (Nat.lt_of_succ_lt hk) fun j hj => htakes j (Nat.lt_succ_of_lt hj), hwaits,
      List.replicate_succ']

private theorem finishes (htakes : ∀ k < n.toNat, Takes others run k) :
    results others run (max n.toNat 1) = List.replicate (max n.toNat 1 - 1) .waitForNextCycle ++ [.finished] ∧
      FileStore.read (afterIterations others run (max n.toNat 1)).2 path = .ok (firstTerms n.toNat) := by
  cases hn : n.toNat with
  | zero =>
    -- The only iteration leaves the store alone, so that the file stays as it was emptied.
    have hdone : run.1.terms ≤ run.1.computed := hrun.le_computed_iff.2 (Nat.le_of_eq hn)
    have hiterate : run.1.iterate (others 0 run.2) = (.finished, run.1, others 0 run.2) := iterate_of_done hdone
    have hresult : resultOf others run 0 = .finished := congrArg Prod.fst hiterate
    have hafter : (afterIterations others run 1).2 = others 0 run.2 := congrArg (fun answer => answer.2.2) hiterate
    rw [Nat.zero_max, hafter, hothers, hrun.content, results_succ, hresult]
    exact ⟨rfl, rfl⟩
  | succ k =>
    have hk : k < n.toNat := hn ▸ Nat.lt_succ_self k
    have hlast := resultOf_of_takes hothers hrun hk fun j hj => htakes j (Nat.lt_of_le_of_lt hj hk)
    have hreached := reached_afterIterations hothers hrun (Nat.le_refl _) htakes
    rw [if_pos (Nat.le_of_eq hn)] at hlast
    rw [hn] at hreached
    rw [Nat.max_eq_left (Nat.succ_pos k), results_succ, hlast,
      results_of_takes hothers hrun hk fun j hj => htakes j (Nat.lt_trans hj hk)]
    exact ⟨rfl, hreached.content⟩

private theorem stops_short (hk : k < n.toNat) (htakes : ∀ j < k, Takes others run j)
    (hrefuses : ¬ Takes others run k) :
    results others run (k + 1) = List.replicate k .waitForNextCycle ++ [.failure] ∧
      FileStore.read (afterIterations others run (k + 1)).2 path = .ok (firstTerms k) := by
  have hreached := reached_afterIterations hothers hrun (Nat.le_of_lt hk) htakes
  obtain ⟨hresult, hread⟩ :=
    iterate_fails (hreached.of_read_eq (hothers k _)) hk (Bool.not_eq_true _ ▸ hrefuses)
  refine ⟨?_, hread⟩
  rw [results_succ, results_of_takes hothers hrun hk htakes]
  exact congrArg (fun result => _ ++ [result]) hresult

end

/-- A run on a store that works, whatever the experiment and the file held before, while others use the store but not
this file.  The run starts where the file can be emptied.  Where every term is taken, an iteration is made for each, and
one where there is none to compute; all but the last ask for the next pass, the last is finished, and the file holds the
sequence with its terms capped.  Where some term is refused, its iteration fails, and the file holds the terms before
it. -/
theorem writes_capped_terms {σ : Type} [FileStore σ] [LawfulFileStore σ] (fib : Fibonacci) (store : σ)
    (others : Nat → σ → σ) (hothers : ∀ i store, FileStore.read (others i store) path = FileStore.read store path)
    (hstart : (FileStore.write path [] store).1.toBool = true) :
    let run := (fib.start store).2
    let n := fib.terms.toNat
    (fib.start store).1 = .success ∧
    ((∀ k < n, Takes others run k) →
      results others run (max n 1) = List.replicate (max n 1 - 1) .waitForNextCycle ++ [.finished] ∧
      FileStore.read (afterIterations others run (max n 1)).2 path = .ok (firstTerms n)) ∧
    ∀ k < n, (∀ j < k, Takes others run j) → ¬ Takes others run k →
      results others run (k + 1) = List.replicate k .waitForNextCycle ++ [.failure] ∧
      FileStore.read (afterIterations others run (k + 1)).2 path = .ok (firstTerms k) := by
  intro run n
  obtain ⟨hsuccess, hrun⟩ := reached_start fib hstart
  refine ⟨hsuccess, finishes hothers hrun, ?_⟩
  intro k hk htakes hrefuses
  exact stops_short hothers hrun hk htakes hrefuses

/-- A run that was left after seven terms is made again, first with as many terms as it takes to reach the largest
word, then with the file refused before the third term. -/
theorem writes_capped_terms_again :
    let files : Files := ⟨[(path, [1, 2, 3])], []⟩
    let whole : Fibonacci := ⟨95, 7, 13, 21⟩
    let short : Fibonacci := ⟨3, 7, 13, 21⟩
    let quiet (_ : Nat) (files : Files) : Files := files
    let refusing (i : Nat) (files : Files) : Files := if i = 2 then files.refuse path else files
    ((whole.start files).1 = .success ∧
      results quiet (whole.start files).2 95 = List.replicate 94 .waitForNextCycle ++ [.finished] ∧
      (afterIterations quiet (whole.start files).2 95).2.read path = .ok (firstTerms 95)) ∧
    (short.start files).1 = .success ∧
      results refusing (short.start files).2 3 = [.waitForNextCycle, .waitForNextCycle, .failure] ∧
      (afterIterations refusing (short.start files).2 3).2.read path = .ok (firstTerms 2) := by
  intro files whole short quiet refusing
  have hrefusing (i : Nat) (files : Files) : (refusing i files).read path = files.read path := by
    show Files.read (if i = 2 then files.refuse path else files) path = files.read path
    split <;> rfl
  obtain ⟨hstart, hfinishes, -⟩ := writes_capped_terms whole files quiet (fun _ _ => rfl) rfl
  obtain ⟨hstart', -, hstops⟩ := writes_capped_terms short files refusing hrefusing rfl
  exact ⟨⟨hstart, hfinishes (by decide +kernel)⟩, hstart',
    hstops 2 (by decide) (by decide +kernel) (by decide +kernel)⟩

end Fibonacci

end Spacecraft
