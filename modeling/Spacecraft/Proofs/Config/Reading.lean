import Spacecraft.Proofs.Config.Grammar

/-!
# Readers and the grammar

Each reader takes a text of its kind off the front of whatever follows, as long as that cannot be taken for a
continuation (`Delimits`).  A string is read piece by piece, in the same way where it is a name and where it is skipped;
only what its escapes stand for differs (`InPieces`).
-/

namespace Spacecraft

namespace Json

/-! ### Blanks -/

variable {blanks rest : Bytes}

theorem skipBlanks_append (h : IsBlanks blanks) (rest : Bytes) : skipBlanks (blanks ++ rest) = skipBlanks rest :=
  List.dropWhile_append_of_pos h

theorem skipBlanks_cons {b : UInt8} (h : isBlank b = false) (rest : Bytes) : skipBlanks (b :: rest) = b :: rest := by
  simp [skipBlanks, h]

theorem skipBlanks_append_cons {b : UInt8} (h : IsBlanks blanks) (hb : isBlank b = false) (rest : Bytes) :
    skipBlanks (blanks ++ b :: rest) = b :: rest := by
  rw [skipBlanks_append h, skipBlanks_cons hb]

theorem skipBlanks_of_isBlanks (h : IsBlanks blanks) : skipBlanks blanks = [] := by
  rw [← List.append_nil blanks, skipBlanks_append h]
  rfl

theorem colon_append (h : IsBlanks blanks) (rest : Bytes) : colon (blanks ++ byte ':' :: rest) = .ok rest := by
  rw [colon, skipBlanks_append_cons h (by decide)]
  exact if_pos rfl

/-! ### Strings -/

section

variable {word text said : Bytes} {n : Nat}

private theorem hexWord_append (h : IsHexWord word n) (rest : Bytes) : hexWord (word ++ rest) = .ok (n, rest) := by
  obtain ⟨ha, hb, hc, hd⟩ := h
  simp [hexWord, ha, hb, hc, hd]

/-- The letter that announces a number stands for nothing by itself. -/
private theorem ne_of_escaped? {b c : UInt8} (h : escaped? b = some c) : b ≠ byte 'u' := by
  rintro rfl
  have hnone : escaped? (byte 'u') = none := by decide
  simp [hnone] at h

private theorem stringBody_end (reader : Bytes → Read Bytes) (pieces : Nat) (rest : Bytes) :
    stringBody reader (pieces + 1) (byte '"' :: rest) = .ok ([], rest) := by
  rw [stringBody, if_pos rfl]

private theorem stringBody_plain (reader : Bytes → Read Bytes) (pieces : Nat) {b : UInt8} (hb : IsPlain b)
    (rest : Bytes) :
    stringBody reader (pieces + 1) (b :: rest) =
      (stringBody reader pieces rest).map fun (tail, rest) => (b :: tail, rest) := by
  obtain ⟨hcontrol, hquote, hbackslash⟩ := hb
  rw [stringBody, if_neg hquote, if_neg hbackslash, if_neg (UInt8.not_lt.2 hcontrol)]

private theorem stringBody_escape (reader : Bytes → Read Bytes) (pieces : Nat) {escape part rest : Bytes}
    (h : reader escape = .ok (part, rest)) :
    stringBody reader (pieces + 1) (byte '\\' :: escape) =
      (stringBody reader pieces rest).map fun (tail, rest) => (part ++ tail, rest) := by
  rw [stringBody, if_neg (by decide), if_pos rfl, h]

private theorem escape_escaped {b c : UInt8} (h : escaped? b = some c) (rest : Bytes) :
    escape (b :: rest) = .ok ([c], rest) := by
  rw [escape, if_neg (ne_of_escaped? h), h]

private theorem looseEscape_escaped {b c : UInt8} (h : escaped? b = some c) (rest : Bytes) :
    looseEscape (b :: rest) = .ok ([c], rest) := by
  rw [looseEscape, if_neg (ne_of_escaped? h), h]

private theorem escape_numbered (hword : IsHexWord word n) (hhigh : isHighHalf n = false) (hlow : isLowHalf n = false)
    (rest : Bytes) : escape (byte 'u' :: (word ++ rest)) = .ok (encodePoint n, rest) := by
  rw [escape, if_pos rfl, numberedChar, hexWord_append hword]
  simp [hhigh, hlow]

private theorem looseEscape_numbered (hword : IsHexWord word n) (rest : Bytes) :
    looseEscape (byte 'u' :: (word ++ rest)) = .ok ([], rest) := by
  rw [looseEscape, if_pos rfl, hexWord_append hword]
  rfl

private theorem escape_paired {other : Bytes} {m : Nat} (hword : IsHexWord word n) (hother : IsHexWord other m)
    (hhigh : isHighHalf n = true) (hlow : isLowHalf m = true) (rest : Bytes) :
    escape (byte 'u' :: (word ++ byte '\\' :: byte 'u' :: (other ++ rest))) =
      .ok (encodePoint ((n - 0xd800) * 1024 + (m - 0xdc00) + 0x10000), rest) := by
  have hfirst : isLowHalf n = false := by
    simp only [isHighHalf, Bool.and_eq_true, decide_eq_true_eq] at hhigh
    simp only [isLowHalf, Bool.and_eq_false_iff, decide_eq_false_iff_not]
    omega
  have hpair : literal [0x5c, 0x75] (byte '\\' :: byte 'u' :: (other ++ rest)) = .ok (other ++ rest) := rfl
  rw [escape, if_pos rfl, numberedChar, hexWord_append hword]
  simp [hhigh, hfirst, hpair, hexWord_append hother, hlow]

/-- A text between quotes in pieces that are read one by one, and the bytes that they stand for. -/
inductive InPieces (reader : Bytes → Read Bytes) : Bytes → Bytes → Prop
  | nil : InPieces reader [] []
  | plain {b : UInt8} {text said : Bytes} (hb : IsPlain b) (h : InPieces reader text said) :
      InPieces reader (b :: text) (b :: said)
  | escape (escape : Bytes) {part text said : Bytes} (hescape : ∀ rest, reader (escape ++ rest) = .ok (part, rest))
      (h : InPieces reader text said) : InPieces reader (byte '\\' :: (escape ++ text)) (part ++ said)

/-- A piece is enough for each byte of the text, and one for the quote. -/
private theorem stringBody_of_inPieces {reader : Bytes → Read Bytes} (h : InPieces reader text said) (rest : Bytes)
    {pieces : Nat} (hpieces : text.length < pieces) :
    stringBody reader pieces (text ++ byte '"' :: rest) = .ok (said, rest) := by
  induction h generalizing pieces with
  | nil =>
    obtain ⟨pieces, rfl⟩ := Nat.exists_eq_add_one_of_ne_zero (Nat.ne_zero_of_lt hpieces)
    exact stringBody_end reader pieces rest
  | plain hb _ ih =>
    obtain ⟨pieces, rfl⟩ := Nat.exists_eq_add_one_of_ne_zero (Nat.ne_zero_of_lt hpieces)
    rw [List.length_cons] at hpieces
    rw [List.cons_append, stringBody_plain reader pieces hb, ih (by omega)]
    rfl
  | escape _ hescape _ ih =>
    obtain ⟨pieces, rfl⟩ := Nat.exists_eq_add_one_of_ne_zero (Nat.ne_zero_of_lt hpieces)
    rw [List.length_cons, List.length_append] at hpieces
    rw [List.cons_append, List.append_assoc, stringBody_escape reader pieces (hescape _), ih (by omega)]
    rfl

/-- As many pieces as the whole text has bytes are enough. -/
private theorem stringBody_append {reader : Bytes → Read Bytes} (h : InPieces reader text said) (rest : Bytes) :
    stringBody reader ((text ++ byte '"' :: rest).length + 1) (text ++ byte '"' :: rest) = .ok (said, rest) := by
  refine stringBody_of_inPieces h rest ?_
  rw [List.length_append]
  omega

private theorem inPieces_of_spells (h : Spells text said) : InPieces escape text said := by
  induction h with
  | nil => exact .nil
  | plain hb _ ih => exact .plain hb ih
  | escaped hb _ ih => exact .escape [_] (escape_escaped hb) ih
  | numbered hword hhigh hlow _ ih =>
    exact .escape (byte 'u' :: _) (escape_numbered hword hhigh hlow) ih
  | @paired word other text said n m hword hother hhigh hlow _ ih =>
    have hescape := escape_paired hword hother hhigh hlow
    have hpieces := InPieces.escape (byte 'u' :: (word ++ byte '\\' :: byte 'u' :: other))
      (fun rest => by simpa only [List.cons_append, List.append_assoc] using hescape rest) ih
    simpa only [List.cons_append, List.append_assoc] using hpieces

private theorem exists_inPieces (h : IsStringBody text) : ∃ said, InPieces looseEscape text said := by
  induction h with
  | nil => exact ⟨_, .nil⟩
  | plain hb _ ih =>
    obtain ⟨said, hsaid⟩ := ih
    exact ⟨_, .plain hb hsaid⟩
  | escaped hb _ ih =>
    obtain ⟨said, hsaid⟩ := ih
    exact ⟨_, .escape [_] (looseEscape_escaped hb) hsaid⟩
  | numbered hword _ ih =>
    obtain ⟨said, hsaid⟩ := ih
    exact ⟨_, .escape (byte 'u' :: _) (looseEscape_numbered hword) hsaid⟩

theorem string_append (h : Spells text said) (rest : Bytes) : string (text ++ byte '"' :: rest) = .ok (said, rest) := by
  rw [string, stringBody_append (inPieces_of_spells h)]

theorem skipString_append (h : IsStringBody text) (rest : Bytes) :
    skipString (text ++ byte '"' :: rest) = .ok rest := by
  obtain ⟨said, hsaid⟩ := exists_inPieces h
  rw [skipString, stringBody_append hsaid]
  rfl

end

/-! ### Numbers -/

/-- A digit begins nothing but a number. -/
theorem ne_of_isDigit {b c : UInt8} (hb : isDigit b = true) (hc : isDigit c = false) : b ≠ c := by
  rintro rfl
  exact Bool.false_ne_true (hc.symm.trans hb)

theorem isBlank_of_isDigit {b : UInt8} (h : isDigit b = true) : isBlank b = false := by
  have hspace : b ≠ 0x20 := ne_of_isDigit h (by decide)
  have htab : b ≠ 0x09 := ne_of_isDigit h (by decide)
  have hfeed : b ≠ 0x0a := ne_of_isDigit h (by decide)
  have hreturn : b ≠ 0x0d := ne_of_isDigit h (by decide)
  simp [isBlank, hspace, htab, hfeed, hreturn]

/-- No digit stands at the front. -/
def NoDigit (rest : Bytes) : Prop := ∀ b ∈ rest.head?, isDigit b = false

/-- Nothing at the front can belong to a number. -/
def Delimits (rest : Bytes) : Prop :=
  ∀ b ∈ rest.head?, isDigit b = false ∧ b ≠ byte '.' ∧ b ≠ byte 'e' ∧ b ≠ byte 'E'

section

variable {digits fraction exponent : Bytes}

theorem Delimits.noDigit (h : Delimits rest) : NoDigit rest := fun b hb => (h b hb).1

theorem delimits_cons {b : UInt8} (hb : isBlank b = true ∨ b = byte ',' ∨ b = 0x5d ∨ b = 0x7d) (rest : Bytes) :
    Delimits (b :: rest) := by
  intro c hc
  obtain rfl := Option.some.inj hc
  simp only [isBlank, Bool.or_eq_true, beq_iff_eq] at hb
  rcases hb with (((rfl | rfl) | rfl) | rfl) | rfl | rfl | rfl <;> decide

theorem delimits_append (h : IsBlanks blanks) (hrest : Delimits rest) : Delimits (blanks ++ rest) := by
  cases blanks with
  | nil => exact hrest
  | cons b blanks => exact delimits_cons (.inl (h b List.mem_cons_self)) _

private theorem takeWhile_digits (h : IsDigits digits) (hrest : NoDigit rest) :
    (digits ++ rest).takeWhile isDigit = digits := by
  rw [List.takeWhile_append_of_pos h.2]
  cases rest with
  | nil => simp
  | cons b rest => simp [hrest b rfl]

private theorem dropWhile_digits (h : IsDigits digits) (hrest : NoDigit rest) :
    (digits ++ rest).dropWhile isDigit = rest := by
  rw [List.dropWhile_append_of_pos h.2]
  cases rest with
  | nil => rfl
  | cons b rest => simp [hrest b rfl]

theorem IsDigits.exists_cons (h : IsDigits digits) : ∃ b tail, digits = b :: tail ∧ isDigit b = true := by
  obtain ⟨b, tail, rfl⟩ := List.exists_cons_of_ne_nil h.1
  exact ⟨b, tail, rfl, h.2 b List.mem_cons_self⟩

private theorem someDigits_append (h : IsDigits digits) (hrest : NoDigit rest) :
    someDigits (digits ++ rest) = .ok (digits, rest) := by
  have htake := takeWhile_digits h hrest
  have hdrop := dropWhile_digits h hrest
  obtain ⟨b, tail, rfl, hb⟩ := h.exists_cons
  rw [List.cons_append] at htake hdrop ⊢
  rw [someDigits, if_pos hb, htake, hdrop]

theorem integerDigits_append (h : IsWhole digits) (hrest : NoDigit rest) :
    integerDigits (digits ++ rest) = .ok (digits, rest) := by
  rcases h with rfl | ⟨hdigits, hzero⟩
  · cases rest with
    | nil => rfl
    | cons b rest => simp [integerDigits, hrest b rfl]
  · have htake := takeWhile_digits hdigits hrest
    have hdrop := dropWhile_digits hdigits hrest
    obtain ⟨b, tail, rfl, hb⟩ := hdigits.exists_cons
    have hne : b ≠ byte '0' := fun heq => hzero (congrArg some heq)
    rw [List.cons_append, List.takeWhile_cons, if_pos hb] at htake
    rw [List.cons_append, List.dropWhile_cons, if_pos hb] at hdrop
    rw [List.cons_append, integerDigits.eq_def]
    simp only [if_neg hne, if_pos hb, htake, hdrop]

theorem fraction?_none (hrest : ∀ b ∈ rest.head?, b ≠ byte '.') : fraction? rest = .ok (none, rest) := by
  cases rest with
  | nil => rfl
  | cons b rest => rw [fraction?, if_neg (hrest b rfl)]

theorem exponent?_none (hrest : ∀ b ∈ rest.head?, b ≠ byte 'e' ∧ b ≠ byte 'E') : exponent? rest = .ok (none, rest) := by
  cases rest with
  | nil => rfl
  | cons b rest =>
    obtain ⟨he, hE⟩ := hrest b rfl
    simp [exponent?, he, hE]

theorem fraction?_append (h : IsFraction fraction) (hdigit : NoDigit rest) (hpoint : ∀ b ∈ rest.head?, b ≠ byte '.') :
    ∃ part, fraction? (fraction ++ rest) = .ok (part, rest) := by
  rcases h with rfl | ⟨digits, hdigits, rfl⟩
  · exact ⟨none, fraction?_none hpoint⟩
  · rw [List.cons_append, fraction?, if_pos rfl, someDigits_append hdigits hdigit]
    exact ⟨_, rfl⟩

theorem exponent?_append (h : IsExponent exponent) (hrest : Delimits rest) :
    ∃ part, exponent? (exponent ++ rest) = .ok (part, rest) := by
  rcases h with rfl | ⟨letter, sign, digits, hletter, hsign, hdigits, rfl⟩
  · exact ⟨none, exponent?_none fun b hb => (hrest b hb).2.2⟩
  · have hread := someDigits_append hdigits hrest.noDigit
    have hmark : (letter = byte 'e' || letter = byte 'E') = true := by
      rcases hletter with rfl | rfl <;> decide
    rw [List.cons_append, List.append_assoc, exponent?.eq_def]
    simp only [if_pos hmark]
    rcases hsign with rfl | rfl | rfl
    · obtain ⟨b, tail, rfl, hb⟩ := hdigits.exists_cons
      have hminus : b ≠ byte '-' := ne_of_isDigit hb (by decide)
      have hplus : b ≠ byte '+' := ne_of_isDigit hb (by decide)
      rw [List.cons_append] at hread
      simp only [List.nil_append, List.cons_append, hminus, hplus, if_false, hread]
      exact ⟨_, rfl⟩
    · have hne : byte '+' ≠ byte '-' := by decide
      simp only [List.cons_append, List.nil_append, hne, if_false, if_true, hread]
      exact ⟨_, rfl⟩
    · simp only [List.cons_append, List.nil_append, if_true, hread]
      exact ⟨_, rfl⟩

end

end Json

end Spacecraft
