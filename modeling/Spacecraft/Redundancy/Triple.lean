/-!
# Three copies

What is kept three times, and the value that at least two of three copies agree on.
-/

namespace Spacecraft

/-- One thing per copy. -/
structure Triple (α : Type) where
  first : α
  second : α
  third : α
deriving DecidableEq

namespace Triple

variable {α β γ : Type}

/-- The same thing three times. -/
def replicate (a : α) : Triple α := ⟨a, a, a⟩

/-- The thing of one copy. -/
def get (t : Triple α) : Fin 3 → α
  | 0 => t.first
  | 1 => t.second
  | 2 => t.third

/-- Replace the thing of one copy. -/
def set (i : Fin 3) (a : α) (t : Triple α) : Triple α :=
  match i with
  | 0 => { t with first := a }
  | 1 => { t with second := a }
  | 2 => { t with third := a }

/-- Change the thing of one copy. -/
def modify (i : Fin 3) (f : α → α) (t : Triple α) : Triple α := t.set i (f (t.get i))

/-- Apply a function to each copy. -/
def map (f : α → β) (t : Triple α) : Triple β := ⟨f t.first, f t.second, f t.third⟩

/-- Combine two triples copy by copy. -/
def zipWith (f : α → β → γ) (s : Triple α) (t : Triple β) : Triple γ :=
  ⟨f s.first t.first, f s.second t.second, f s.third t.third⟩

/-- The copies in order. -/
def toList (t : Triple α) : List α := [t.first, t.second, t.third]

/-- The number of copies that satisfy a condition. -/
def count (p : α → Bool) (t : Triple α) : Nat := t.toList.countP p

/-- The value that at least two copies hold. -/
def majority? [DecidableEq α] (t : Triple α) : Option α :=
  if t.first = t.second ∨ t.first = t.third then some t.first
  else if t.second = t.third then some t.second
  else none

@[simp]
theorem get_map (f : α → β) (t : Triple α) (i : Fin 3) : (t.map f).get i = f (t.get i) := by
  match i with
  | 0 => rfl
  | 1 => rfl
  | 2 => rfl

theorem get_set (t : Triple α) (i j : Fin 3) (a : α) : (t.set i a).get j = if j = i then a else t.get j := by
  match i, j with
  | 0, 0 => rfl
  | 0, 1 => rfl
  | 0, 2 => rfl
  | 1, 0 => rfl
  | 1, 1 => rfl
  | 1, 2 => rfl
  | 2, 0 => rfl
  | 2, 1 => rfl
  | 2, 2 => rfl

theorem map_congr {s : Triple α} {f g : α → β} (h : ∀ a ∈ s.toList, f a = g a) : s.map f = s.map g := by
  obtain ⟨x, y, z⟩ := s
  simp only [toList, List.forall_mem_cons] at h
  rw [map, map, h.1, h.2.1, h.2.2.1]

theorem count_map (f : α → β) (p : β → Bool) (t : Triple α) : (t.map f).count p = t.count fun a => p (f a) := rfl

/-- There are no copies but these three. -/
theorem index_cases (i : Fin 3) : i = 0 ∨ i = 1 ∨ i = 2 := by
  revert i
  decide

theorem exists_two_others (i : Fin 3) : ∃ j k : Fin 3, j ≠ k ∧ j ≠ i ∧ k ≠ i := by
  revert i
  decide

theorem get_mem_toList (t : Triple α) (i : Fin 3) : t.get i ∈ t.toList := by
  rcases index_cases i with rfl | rfl | rfl <;> simp [toList, get]

theorem count_add_count_not (p : α → Bool) (t : Triple α) : t.count p + t.count (fun a => !p a) = 3 := by
  have h := List.length_eq_countP_add_countP p (l := t.toList)
  simp only [Bool.not_eq_true, Bool.decide_eq_false] at h
  exact h.symm

/-- Two copies satisfy a condition exactly where the condition holds at two places. -/
theorem two_le_count_iff {p : α → Bool} {t : Triple α} :
    2 ≤ t.count p ↔ ∃ i j, i ≠ j ∧ p (t.get i) = true ∧ p (t.get j) = true := by
  obtain ⟨x, y, z⟩ := t
  simp only [count, toList, List.countP_cons, List.countP_nil]
  constructor
  · intro h
    by_cases hx : p x = true
    · by_cases hy : p y = true
      · exact ⟨0, 1, by decide, hx, hy⟩
      · have hz : p z = true := by grind
        exact ⟨0, 2, by decide, hx, hz⟩
    · have hyz : p y = true ∧ p z = true := by grind
      exact ⟨1, 2, by decide, hyz.1, hyz.2⟩
  · rintro ⟨i, j, hij, hi, hj⟩
    rcases index_cases i with rfl | rfl | rfl <;> rcases index_cases j with rfl | rfl | rfl <;>
      simp_all [get]

/-- A condition holds of no more than one copy exactly where two copies do not satisfy it. -/
theorem count_le_one_iff {p : α → Bool} {t : Triple α} :
    t.count p ≤ 1 ↔ ∃ i j, i ≠ j ∧ p (t.get i) = false ∧ p (t.get j) = false := by
  have hsum := count_add_count_not p t
  have htwo := two_le_count_iff (p := fun a => !p a) (t := t)
  simp only [Bool.not_eq_true'] at htwo
  rw [← htwo]
  omega

/-- The vote goes to a value exactly where at least two copies hold it. -/
theorem majority?_eq_some_iff [DecidableEq α] {t : Triple α} {a : α} :
    t.majority? = some a ↔ 2 ≤ t.count (fun b => decide (b = a)) := by
  obtain ⟨x, y, z⟩ := t
  simp only [majority?, count, toList, List.countP_cons, List.countP_nil, decide_eq_true_eq]
  grind

/-- No vote is won exactly where no two copies hold the same. -/
theorem majority?_eq_none_iff [DecidableEq α] {t : Triple α} :
    t.majority? = none ↔ ∀ i j, i ≠ j → t.get i ≠ t.get j := by
  constructor
  · intro hnone i j hne heq
    have hsome : t.majority? = some (t.get i) :=
      majority?_eq_some_iff.2 (two_le_count_iff.2 ⟨i, j, hne, decide_eq_true rfl, decide_eq_true heq.symm⟩)
    rw [hnone] at hsome
    cases hsome
  · intro hdiffer
    cases hmajority : t.majority? with
    | none => rfl
    | some a =>
      obtain ⟨i, j, hne, hi, hj⟩ := two_le_count_iff.1 (majority?_eq_some_iff.1 hmajority)
      exact absurd ((of_decide_eq_true hi).trans (of_decide_eq_true hj).symm) (hdiffer i j hne)

end Triple

end Spacecraft
