import Spacecraft.Proofs.Config.Reading

/-!
# Skipping values

A value is skipped with a stack of the brackets that are open around it.  By induction on the grammar, skipping a text
takes no more steps than twice its length and leaves the stack as it was (`skips_of_isText`); so a skipped value ends
where the grammar says that it ends, however deep it is nested (`skipValue_append`).
-/

namespace Spacecraft

namespace Json

variable {blanks rest : Bytes}

/-! ### Scalars -/

section

variable {whole fraction exponent text : Bytes}

private theorem IsExponent.head_append (h : IsExponent exponent) (hrest : Delimits rest) :
    ∀ b ∈ (exponent ++ rest).head?, isDigit b = false ∧ b ≠ byte '.' := by
  rcases h with rfl | ⟨letter, sign, digits, hletter, -, -, rfl⟩
  · exact fun b hb => ⟨(hrest b hb).1, (hrest b hb).2.1⟩
  · intro b hb
    obtain rfl := Option.some.inj hb
    rcases hletter with rfl | rfl <;> decide

private theorem IsFraction.noDigit_append (h : IsFraction fraction) (hrest : NoDigit rest) :
    NoDigit (fraction ++ rest) := by
  rcases h with rfl | ⟨digits, -, rfl⟩
  · exact hrest
  · intro b hb
    obtain rfl := Option.some.inj hb
    decide

private theorem skipUnsigned_append (hwhole : IsWhole whole) (hfraction : IsFraction fraction)
    (hexponent : IsExponent exponent)
    (hrest : Delimits rest) : skipUnsigned (whole ++ (fraction ++ (exponent ++ rest))) = .ok rest := by
  have hhead := hexponent.head_append hrest
  have hdigit : NoDigit (exponent ++ rest) := fun b hb => (hhead b hb).1
  have hinteger := integerDigits_append hwhole (hfraction.noDigit_append hdigit)
  obtain ⟨_, hpoint⟩ := fraction?_append hfraction hdigit fun b hb => (hhead b hb).2
  obtain ⟨_, hscale⟩ := exponent?_append hexponent hrest
  simp only [skipUnsigned, hinteger, hpoint, hscale]

theorem IsWhole.exists_cons (h : IsWhole whole) : ∃ b tail, whole = b :: tail ∧ isDigit b = true := by
  rcases h with rfl | ⟨hdigits, -⟩
  · exact ⟨byte '0', [], rfl, by decide⟩
  · exact hdigits.exists_cons

private theorem skipScalar_digit {b : UInt8} (hb : isDigit b = true) (text : Bytes) :
    skipScalar (b :: text) = skipUnsigned (b :: text) := by
  have hn : b ≠ byte 'n' := ne_of_isDigit hb (by decide)
  have ht : b ≠ byte 't' := ne_of_isDigit hb (by decide)
  have hf : b ≠ byte 'f' := ne_of_isDigit hb (by decide)
  have hminus : b ≠ byte '-' := ne_of_isDigit hb (by decide)
  rw [skipScalar, if_neg hn, if_neg ht, if_neg hf, if_neg hminus, if_pos hb]

private theorem skipScalar_append (h : IsScalar text) (hrest : Delimits rest) :
    skipScalar (text ++ rest) = .ok rest := by
  cases h with
  | null | yes | no => rfl
  | string h =>
    have hread := skipString_append h rest
    simp only [List.cons_append, List.append_assoc, List.nil_append]
    exact hread
  | number h =>
    obtain ⟨hsign, hwhole, hfraction, hexponent⟩ := h
    have hread := skipUnsigned_append hwhole hfraction hexponent hrest
    simp only [List.append_assoc]
    rcases hsign with rfl | rfl
    · obtain ⟨b, tail, rfl, hb⟩ := hwhole.exists_cons
      rw [List.nil_append, List.cons_append, skipScalar_digit hb]
      exact hread
    · exact hread

/-- What a value can begin with: no blank, and nothing that closes a bracket. -/
def Begins (b : UInt8) : Prop := isBlank b = false ∧ b ≠ 0x5d ∧ b ≠ 0x7d

private theorem begins_of_isDigit {b : UInt8} (h : isDigit b = true) : Begins b :=
  ⟨isBlank_of_isDigit h, ne_of_isDigit h (by decide), ne_of_isDigit h (by decide)⟩

theorem IsScalar.exists_cons (h : IsScalar text) :
    ∃ b tail, text = b :: tail ∧ Begins b ∧ b ≠ byte '[' ∧ b ≠ 0x7b := by
  cases h with
  | null | yes | no | string => exact ⟨_, _, rfl, ⟨by decide, by decide, by decide⟩, by decide, by decide⟩
  | number h =>
    obtain ⟨hsign, hwhole, -, -⟩ := h
    rcases hsign with rfl | rfl
    · obtain ⟨b, tail, rfl, hb⟩ := hwhole.exists_cons
      exact ⟨b, _, rfl, begins_of_isDigit hb, ne_of_isDigit hb (by decide), ne_of_isDigit hb (by decide)⟩
    · exact ⟨byte '-', _, rfl, ⟨by decide, by decide, by decide⟩, by decide, by decide⟩

end

/-! ### One step -/

section

variable {bracket : Bracket} {brackets : List Bracket} {front text value : Bytes}

private theorem isBlank_opening (bracket : Bracket) : isBlank bracket.opening = false := by
  cases bracket <;> decide

private theorem isBlank_closing (bracket : Bracket) : isBlank bracket.closing = false := by
  cases bracket <;> decide

private theorem delimits_closing (bracket : Bracket) (rest : Bytes) : Delimits (bracket.closing :: rest) := by
  cases bracket <;> exact delimits_cons (by decide) rest

private theorem Begins.ne_closing {b : UInt8} (h : Begins b) (bracket : Bracket) : b ≠ bracket.closing := by
  cases bracket with
  | list => exact h.2.1
  | object => exact h.2.2

theorem IsText.exists_cons (h : IsText .value value) : ∃ b tail, value = b :: tail ∧ Begins b := by
  cases h with
  | scalar h =>
    obtain ⟨b, tail, rfl, hb, -, -⟩ := h.exists_cons
    exact ⟨b, tail, rfl, hb⟩
  | empty bracket | @bracketed bracket =>
    refine ⟨bracket.opening, _, rfl, ?_⟩
    cases bracket <;> exact ⟨by decide, by decide, by decide⟩

private theorem skipNested_scalar (h : IsScalar text) (hrest : Delimits rest) (fuel : Nat) (brackets : List Bracket) :
    skipNested (fuel + 1) brackets (text ++ rest) = skipAfter fuel brackets rest := by
  have hread := skipScalar_append h hrest
  obtain ⟨b, tail, rfl, hb, hlist, hobject⟩ := h.exists_cons
  rw [List.cons_append] at hread ⊢
  rw [skipNested, skipBlanks_cons hb.1]
  simp only [if_neg hlist, if_neg hobject, hread]

private theorem skipNested_opening (fuel : Nat) (bracket : Bracket) (brackets : List Bracket) (rest : Bytes) :
    skipNested (fuel + 1) brackets (bracket.opening :: rest) = skipOpened fuel bracket brackets rest := by
  rw [skipNested, skipBlanks_cons (isBlank_opening bracket)]
  cases bracket <;> rfl

private theorem skipNested_blanks (h : IsBlanks blanks) (fuel : Nat) (brackets : List Bracket) (rest : Bytes) :
    skipNested fuel brackets (blanks ++ rest) = skipNested fuel brackets rest := by
  cases fuel with
  | zero => rw [skipNested, skipNested]
  | succ fuel => rw [skipNested, skipBlanks_append h, skipNested]

private theorem skipAfter_closing (h : IsBlanks blanks) (fuel : Nat) (bracket : Bracket) (brackets : List Bracket)
    (rest : Bytes) :
    skipAfter (fuel + 1) (bracket :: brackets) (blanks ++ bracket.closing :: rest) = skipAfter fuel brackets rest := by
  rw [skipAfter, skipBlanks_append_cons h (isBlank_closing bracket)]
  exact if_pos rfl

private theorem skipAfter_comma (h : IsBlanks blanks) (fuel : Nat) (bracket : Bracket) (brackets : List Bracket)
    (rest : Bytes) :
    skipAfter (fuel + 1) (bracket :: brackets) (blanks ++ byte ',' :: rest) =
      (skipToValue bracket rest).bind (skipNested fuel (bracket :: brackets)) := by
  have hne : byte ',' ≠ bracket.closing := by cases bracket <;> decide
  rw [skipAfter, skipBlanks_append_cons h (by decide)]
  simp only [if_neg hne, if_true]
  cases skipToValue bracket rest <;> rfl

private theorem skipOpened_closing (h : IsBlanks blanks) (fuel : Nat) (bracket : Bracket) (brackets : List Bracket)
    (rest : Bytes) :
    skipOpened (fuel + 1) bracket brackets (blanks ++ bracket.closing :: rest) = skipAfter fuel brackets rest := by
  rw [skipOpened, skipBlanks_append_cons h (isBlank_closing bracket)]
  exact if_pos rfl

/-- Blanks before a name or a value make no difference. -/
private theorem skipToValue_blanks (h : IsBlanks blanks) (fuel : Nat) (bracket : Bracket) (brackets : List Bracket)
    (rest : Bytes) :
    (skipToValue bracket (blanks ++ rest)).bind (skipNested fuel brackets) =
      (skipToValue bracket rest).bind (skipNested fuel brackets) := by
  cases bracket with
  | list => exact skipNested_blanks h fuel brackets rest
  | object =>
    have hname : skipName (blanks ++ rest) = skipName rest := by rw [skipName, skipBlanks_append h, ← skipName]
    rw [skipToValue, skipToValue, hname]

/-- In a bracket that does not close at once, an item comes next. -/
private theorem skipOpened_item (h : IsBlanks blanks) {b : UInt8} (hb : Begins b) (fuel : Nat) (bracket : Bracket)
    (brackets : List Bracket) (rest : Bytes) :
    skipOpened (fuel + 1) bracket brackets (blanks ++ b :: rest) =
      (skipToValue bracket (blanks ++ b :: rest)).bind (skipNested fuel (bracket :: brackets)) := by
  rw [skipToValue_blanks h, skipOpened, skipBlanks_append_cons h hb.1]
  simp only [if_neg (hb.ne_closing bracket)]
  cases skipToValue bracket (b :: rest) <;> rfl

private theorem skipToValue_front (h : IsFront bracket front) (fuel : Nat) (brackets : List Bracket) (rest : Bytes) :
    (skipToValue bracket (front ++ rest)).bind (skipNested fuel brackets) = skipNested fuel brackets rest := by
  cases h with
  | list h => exact skipNested_blanks h fuel brackets rest
  | @object before name between behind hbefore hname hbetween hbehind =>
    have hread : skipToValue .object (label before name between behind ++ rest) = .ok (behind ++ rest) := by
      simp only [label, List.append_assoc, List.cons_append]
      rw [skipToValue, skipName, skipBlanks_append_cons hbefore (by decide)]
      simp only [if_true, skipString_append hname, colon_append hbetween]
    rw [hread]
    exact skipNested_blanks hbehind fuel brackets rest

/-- Behind the blanks at its front, an item goes on with something that neither is a blank nor closes a bracket. -/
private theorem IsFront.exists_begins (h : IsFront bracket front) (hvalue : IsText .value value) (rest : Bytes) :
    ∃ blanks b tail, IsBlanks blanks ∧ Begins b ∧ front ++ (value ++ rest) = blanks ++ b :: tail := by
  cases h with
  | list h =>
    obtain ⟨b, tail, rfl, hb⟩ := hvalue.exists_cons
    exact ⟨front, b, tail ++ rest, h, hb, rfl⟩
  | @object before name between behind hbefore =>
    refine ⟨before, byte '"', name ++ byte '"' :: (between ++ byte ':' :: (behind ++ (value ++ rest))), hbefore,
      ⟨by decide, by decide, by decide⟩, ?_⟩
    simp only [label, List.append_assoc, List.cons_append]

private theorem IsText.exists_begins (h : IsText (.items bracket) text) (rest : Bytes) :
    ∃ blanks b tail, IsBlanks blanks ∧ Begins b ∧ text ++ rest = blanks ++ b :: tail := by
  cases h with
  | last hfront hvalue =>
    simp only [List.append_assoc]
    exact hfront.exists_begins hvalue _
  | more hfront hvalue =>
    simp only [List.append_assoc]
    exact hfront.exists_begins hvalue _

end

/-! ### Whole values -/

/-- What skipping a text comes to: the text is gone, the stack is as it was, and each of its bytes took two steps at
most. -/
def Skips : Part → Bytes → Prop
  | .value, text => ∀ (fuel : Nat) (brackets : List Bracket) (rest : Bytes), Delimits rest →
      ∃ left, fuel < left ∧
        skipNested (fuel + 2 * text.length) brackets (text ++ rest) = skipAfter left brackets rest
  | .items bracket, text => ∀ (fuel : Nat) (brackets : List Bracket) (rest : Bytes),
      ∃ left, fuel < left ∧
        (skipToValue bracket (text ++ bracket.closing :: rest)).bind
          (skipNested (fuel + 2 * text.length + 2) (bracket :: brackets)) = skipAfter left brackets rest

theorem skips_of_isText {part : Part} {text : Bytes} (h : IsText part text) : Skips part text := by
  induction h with
  | @scalar text h =>
    intro fuel brackets rest hrest
    have hlength : 1 ≤ text.length := by
      obtain ⟨b, tail, rfl, -⟩ := h.exists_cons
      rw [List.length_cons]
      omega
    refine ⟨fuel + 2 * text.length - 1, by omega, ?_⟩
    rw [← skipNested_scalar h hrest]
    congr 1
    omega
  | @empty bracket blanks h =>
    intro fuel brackets rest _
    refine ⟨fuel + 2 * blanks.length + 2, by omega, ?_⟩
    have hfuel : fuel + 2 * (bracket.opening :: (blanks ++ [bracket.closing])).length =
        fuel + 2 * blanks.length + 2 + 1 + 1 := by
      simp only [List.length_cons, List.length_append, List.length_nil]
      omega
    rw [hfuel, List.cons_append, List.append_assoc, skipNested_opening]
    exact skipOpened_closing h _ bracket brackets rest
  | @bracketed bracket items h ih =>
    intro fuel brackets rest _
    obtain ⟨left, hleft, hread⟩ := ih fuel brackets rest
    refine ⟨left, hleft, ?_⟩
    have hfuel : fuel + 2 * (bracket.opening :: (items ++ [bracket.closing])).length =
        fuel + 2 * items.length + 2 + 1 + 1 := by
      simp only [List.length_cons, List.length_append, List.length_nil]
      omega
    obtain ⟨blanks, b, tail, hblanks, hb, hitems⟩ := h.exists_begins (bracket.closing :: rest)
    rw [hfuel, List.cons_append, List.append_assoc, skipNested_opening, List.singleton_append, hitems,
      skipOpened_item hblanks hb, ← hitems]
    exact hread
  | @last bracket front value blanks hfront hvalue hblanks ih =>
    intro fuel brackets rest
    have hfollow : Delimits (blanks ++ bracket.closing :: rest) := delimits_append hblanks (delimits_closing bracket rest)
    obtain ⟨left, hleft, hread⟩ := ih (fuel + 2 * front.length + 2 * blanks.length + 2) (bracket :: brackets) _ hfollow
    obtain ⟨left, rfl⟩ := Nat.exists_eq_add_one_of_ne_zero (Nat.ne_zero_of_lt hleft)
    refine ⟨left, by omega, ?_⟩
    have hfuel : fuel + 2 * (front ++ (value ++ blanks)).length + 2 =
        fuel + 2 * front.length + 2 * blanks.length + 2 + 2 * value.length := by
      simp only [List.length_append]
      omega
    simp only [List.append_assoc]
    rw [hfuel, skipToValue_front hfront, hread, skipAfter_closing hblanks]
  | @more bracket front value blanks items hfront hvalue hblanks _ ih ihitems =>
    intro fuel brackets rest
    have hfollow : Delimits (blanks ++ byte ',' :: (items ++ bracket.closing :: rest)) :=
      delimits_append hblanks (delimits_cons (.inr (.inl rfl)) _)
    obtain ⟨left, hleft, hread⟩ := ih (fuel + 2 * front.length + 2 * blanks.length + 2 * items.length + 4)
      (bracket :: brackets) _ hfollow
    -- The items behind the comma have to make do with what the value has left.
    obtain ⟨spare, rfl⟩ : ∃ spare, left = fuel + spare + 2 * items.length + 2 + 1 :=
      ⟨left - fuel - 2 * items.length - 3, by omega⟩
    obtain ⟨last, hlast, hreadItems⟩ := ihitems (fuel + spare) brackets rest
    refine ⟨last, by omega, ?_⟩
    have hfuel : fuel + 2 * (front ++ (value ++ (blanks ++ byte ',' :: items))).length + 2 =
        fuel + 2 * front.length + 2 * blanks.length + 2 * items.length + 4 + 2 * value.length := by
      simp only [List.length_append, List.length_cons]
      omega
    simp only [List.append_assoc, List.cons_append]
    rw [hfuel, skipToValue_front hfront, hread, skipAfter_comma hblanks, hreadItems]

theorem skipValue_append {value : Bytes} (hblanks : IsBlanks blanks) (hvalue : IsText .value value)
    (hrest : Delimits rest) : skipValue (blanks ++ (value ++ rest)) = .ok rest := by
  obtain ⟨left, hleft, hread⟩ := skips_of_isText hvalue (2 * blanks.length + 2 * rest.length + 3) [] rest hrest
  obtain ⟨left, rfl⟩ := Nat.exists_eq_add_one_of_ne_zero (Nat.ne_zero_of_lt hleft)
  have hfuel : 2 * (blanks ++ (value ++ rest)).length + 3 =
      2 * blanks.length + 2 * rest.length + 3 + 2 * value.length := by
    simp only [List.length_append]
    omega
  rw [skipValue, hfuel, skipNested_blanks hblanks, hread, skipAfter]

end Json

end Spacecraft
