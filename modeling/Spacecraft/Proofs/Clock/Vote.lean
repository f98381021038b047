import Mathlib.Algebra.Ring.Nat
import Mathlib.Logic.Equiv.Defs
import Spacecraft.Proofs.Clock.NotAhead

/-!
# The vote at boot

Each of the three files stands for a number, whatever it holds (`TimeCopies.value`), and what is recovered is the vote
of the three numbers (`recover_eq_vote`).  The vote asks which copies agree and which number is the smallest, so it is
blind to the order of the files (`vote_permuted`); and a number that two files stand for wins against anything in the
third.
-/

namespace Spacecraft

namespace LittleEndian

/-- The byte at position `i` counts `256 ^ i` times, on top of a weight that all of them share. -/
private theorem sum_mapIdx (bytes : Bytes) (weight : Nat) :
    (bytes.mapIdx fun i b => b.toNat * (weight * 256 ^ i)).sum = weight * decode bytes := by
  induction bytes generalizing weight with
  | nil => rfl
  | cons b rest ih =>
    -- Behind the first byte all weights are 256 times as large.
    have hnext : ∀ i, weight * 256 ^ (i + 1) = weight * 256 * 256 ^ i := fun i => by
      rw [Nat.pow_succ', Nat.mul_assoc]
    rw [List.mapIdx_cons, List.sum_cons, decode]
    simp only [hnext, ih]
    rw [Nat.pow_zero, Nat.mul_one, Nat.mul_comm b.toNat, Nat.mul_assoc, Nat.mul_add]

private theorem decode_eq_sum (bytes : Bytes) :
    decode bytes = (bytes.mapIdx fun i b => b.toNat * 256 ^ i).sum := by
  have h := sum_mapIdx bytes 1
  simp only [Nat.one_mul] at h
  exact h.symm

end LittleEndian

namespace TimeCopies

/-! ### What a file stands for -/

section Contents

variable {σ : Type} [FileStore σ]

/-- What the three files hold, as far as they can be read. -/
def contents (store : σ) : Triple (Option Bytes) := paths.map fun path => (FileStore.read store path).toOption

/-- The number that a file stands for: its first eight bytes, the least one first, or zero where it is missing or
shorter. -/
def value : Option Bytes → UInt64
  | none => 0
  | some bytes =>
    if bytes.length < 8 then 0 else .ofNat ((bytes.take 8).mapIdx fun i b => b.toNat * 256 ^ i).sum

private theorem read_getD (store : σ) (path : String) :
    (read store path).getD 0 = value (FileStore.read store path).toOption := by
  rw [read, FileStore.readExact]
  cases FileStore.read store path with
  | error e => rfl
  | ok bytes =>
    by_cases hshort : bytes.length < 8
    · simp [Except.toOption, value, hshort]
    · simp [Except.toOption, value, hshort, LittleEndian.decode_eq_sum]

theorem recover_eq_vote (store : σ) : recover store = .ofMillis (vote ((contents store).map value)) := by
  rw [recover, Triple.map_congr fun path _ => read_getD store path]
  rfl

end Contents

/-! ### The vote -/

variable {values values' : Triple UInt64}

/-- The vote goes to the smallest number where no two agree. -/
private theorem vote_of_differ (h : ∀ i j, i ≠ j → values.get i ≠ values.get j) :
    ∃ i, vote values = values.get i ∧ ∀ j, values.get i ≤ values.get j := by
  obtain ⟨hle, i, hi⟩ := vote_of_none (Triple.majority?_eq_none_iff.2 h)
  exact ⟨i, hi, fun j => hi ▸ hle j⟩

theorem vote_permuted (order : Equiv.Perm (Fin 3)) (h : ∀ i, values'.get i = values.get (order i)) :
    vote values' = vote values := by
  by_cases hagree : ∃ i j, i ≠ j ∧ values'.get i = values'.get j
  · obtain ⟨i, j, hne, heq⟩ := hagree
    have heq' : values.get (order i) = values.get (order j) := by rw [← h i, ← h j, heq]
    rw [vote_of_eq hne heq, vote_of_eq (order.injective.ne hne) heq', h i]
  · have hdiffer' : ∀ i j, i ≠ j → values'.get i ≠ values'.get j := fun i j hne heq => hagree ⟨i, j, hne, heq⟩
    have hdiffer : ∀ i j, i ≠ j → values.get i ≠ values.get j := by
      intro i j hne heq
      refine hdiffer' (order.symm i) (order.symm j) (order.symm.injective.ne hne) ?_
      rw [h, h, order.apply_symm_apply, order.apply_symm_apply, heq]
    obtain ⟨i, hi, hmin⟩ := vote_of_differ hdiffer
    obtain ⟨j, hj, hmin'⟩ := vote_of_differ hdiffer'
    rw [hi, hj]
    -- Each of the two is the smallest in its own order, and the other order holds it as well.
    apply UInt64.le_antisymm
    · have hle := hmin' (order.symm i)
      rwa [h (order.symm i), order.apply_symm_apply] at hle
    · rw [h j]
      exact hmin (order j)

/-- A number that two copies hold wins, whatever the third one holds. -/
private theorem vote_of_others {number : UInt64} (i : Fin 3) (h : ∀ j, j ≠ i → values.get j = number) :
    vote values = number := by
  obtain ⟨j, k, hne, hj, hk⟩ := Triple.exists_two_others i
  rw [vote_of_eq hne ((h j hj).trans (h k hk).symm), h j hj]

/-! ### Files that change -/

private theorem recover_of_others {σ : Type} [FileStore σ] {store store' : σ} {number : UInt64}
    (hall : ∀ i, value ((contents store).get i) = number) (i : Fin 3)
    (hothers : ∀ j, j ≠ i → (contents store').get j = (contents store).get j) :
    recover store' = .ofMillis number := by
  rw [recover_eq_vote, vote_of_others i fun j hj => ?_]
  rw [Triple.get_map, hothers j hj, hall j]

private theorem get_contents (files : Files) (i : Fin 3) : (contents files).get i = files.find? (paths.get i) := by
  rw [contents, Triple.get_map]
  show (Files.read files (paths.get i)).toOption = files.find? (paths.get i)
  rw [Files.read]
  cases files.find? (paths.get i) <;> rfl

private theorem paths_injective {i j : Fin 3} (h : paths.get i = paths.get j) : i = j := by
  revert i j
  decide

/-- The vote at boot, whatever the three files of a store hold.  A number that two of them stand for is recovered, and
if no two agree then the smallest one is.  Another order of the files makes no difference.  Where all three stand for
the same time, this time is recovered also after one of them is replaced by anything, or taken away. -/
theorem recovers_vote {σ : Type} [FileStore σ] (store : σ) :
    let number := fun i => value ((contents store).get i)
    (∀ i j, i ≠ j → number i = number j → recover store = .ofMillis (number i)) ∧
    ((∀ i j, i ≠ j → number i ≠ number j) →
      ∃ i, recover store = .ofMillis (number i) ∧ ∀ j, number i ≤ number j) ∧
    (∀ (store' : σ) (order : Equiv.Perm (Fin 3)),
      (∀ i, (contents store').get i = (contents store).get (order i)) → recover store' = recover store) ∧
    (∀ time, (∀ i, number i = time) → recover store = .ofMillis time ∧
      ∀ (store' : σ) (i : Fin 3), (∀ j, j ≠ i → (contents store').get j = (contents store).get j) →
        recover store' = .ofMillis time) ∧
    ∀ (files : Files) (time : UInt64), (∀ i, value ((contents files).get i) = time) → ∀ i bytes,
      recover (files.erase (paths.get i)) = .ofMillis time ∧
        recover (files.insert (paths.get i) bytes) = .ofMillis time := by
  intro number
  have hnumber : ∀ i, ((contents store).map value).get i = number i := fun i => Triple.get_map _ _ i
  refine ⟨fun i j hne heq => ?_, fun hdiffer => ?_, fun store' order horder => ?_, fun time hall => ⟨?_, ?_⟩,
    fun files time hall i bytes => ⟨?_, ?_⟩⟩
  · rw [recover_eq_vote, vote_of_eq hne (by rw [hnumber, hnumber, heq]), hnumber]
  · simp only [← hnumber] at hdiffer ⊢
    obtain ⟨i, hi, hmin⟩ := vote_of_differ hdiffer
    exact ⟨i, by rw [recover_eq_vote, hi], hmin⟩
  · rw [recover_eq_vote, recover_eq_vote, vote_permuted order fun i => ?_]
    rw [Triple.get_map, Triple.get_map, horder]
  · exact recover_of_others hall 0 fun _ _ => rfl
  · exact fun store' i hothers => recover_of_others hall i hothers
  · refine recover_of_others hall i fun j hj => ?_
    rw [get_contents, get_contents, Files.find?_erase, if_neg fun heq => hj (paths_injective heq)]
  · refine recover_of_others hall i fun j hj => ?_
    rw [get_contents, get_contents, Files.find?_insert, if_neg fun heq => hj (paths_injective heq)]

/-- Three copies of 900 s, of which the second one is cut short.  And copies of which no two agree: the first is too
short and counts as zero, and the others go on after their eight bytes. -/
theorem recovers_vote_past_short_copy :
    let saved := content (.ofMillis 900000)
    let files := ((Files.empty.insert "/time0" saved).insert "/time1" saved).insert "/time2" saved
    let differing :=
      ((Files.empty.insert "/time0" [7]).insert "/time1" (saved ++ [1])).insert "/time2" [1, 0, 0, 0, 0, 0, 0, 0, 9]
    recover (files.insert "/time1" [1, 2, 3]) = .ofMillis 900000 ∧
      ∃ i, recover differing = .ofMillis (value ((contents differing).get i)) ∧
        ∀ j, value ((contents differing).get i) ≤ value ((contents differing).get j) := by
  intro saved files differing
  obtain ⟨-, -, -, -, hfiles⟩ := recovers_vote files
  obtain ⟨-, hsmallest, -⟩ := recovers_vote differing
  constructor
  · exact (hfiles files 900000 (by decide +kernel) 1 [1, 2, 3]).2
  · exact hsmallest (by decide +kernel)

end TimeCopies

end Spacecraft
