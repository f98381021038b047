import Spacecraft.Config.Document
import Spacecraft.Proofs.Config.Decimals
import Spacecraft.Proofs.Config.Skipping

/-!
# Reading configurations

A document gives some of the values of a configuration in any order, each once, with any other members before, between
and behind them (`IsDocument`).  Each member is read or skipped as a whole, so that after each of them the values are
those that were given so far (`readMembers_of_isMembers`), and at the end the ones that were not given are still the
standard ones.  The text that is written for a configuration is such a document with all values in it
(`isDocument_toText`).
-/

namespace Spacecraft

namespace MissionConfig

open Json (IsBlanks IsText Spells Delimits byte label)

/-! ### The grammar of documents -/

/-- A name in any spelling, with its colon and blanks around both. -/
inductive IsNamed : Bytes → Bytes → Prop
  | of {before name said between behind : Bytes} (hbefore : IsBlanks before) (hname : Spells name said)
      (hbetween : IsBlanks between) (hbehind : IsBlanks behind) : IsNamed said (label before name between behind)

/-- A member, and which of the values it gives, if it is not an unknown one. -/
inductive IsMember (config : MissionConfig) : Option Field → Bytes → Prop
  | given (field : Field) {front : Bytes} (hfront : IsNamed (bytesOf field.key) front) :
      IsMember config (some field) (front ++ bytesOf (toString (config.get field)))
  | unknown {said front value : Bytes} (hfront : IsNamed said front) (hsaid : ∀ field : Field, said ≠ bytesOf field.key)
      (hvalue : IsText .value value) : IsMember config none (front ++ value)

/-- One member or more, and the values that they give, in this order. -/
inductive IsMembers (config : MissionConfig) : List Field → Bytes → Prop
  | last {field? : Option Field} {member blanks : Bytes} (hmember : IsMember config field? member)
      (hblanks : IsBlanks blanks) : IsMembers config field?.toList (member ++ blanks)
  | more {field? : Option Field} {fields : List Field} {member blanks members : Bytes}
      (hmember : IsMember config field? member) (hblanks : IsBlanks blanks) (hmembers : IsMembers config fields members) :
      IsMembers config (field?.toList ++ fields) (member ++ (blanks ++ byte ',' :: members))

/-- A document that gives some values of a configuration, in this order. -/
inductive IsDocument (config : MissionConfig) : List Field → Bytes → Prop
  | empty {before inside behind : Bytes} (hbefore : IsBlanks before) (hinside : IsBlanks inside)
      (hbehind : IsBlanks behind) : IsDocument config [] (before ++ 0x7b :: (inside ++ 0x7d :: behind))
  | members {fields : List Field} {before members behind : Bytes} (hbefore : IsBlanks before)
      (hmembers : IsMembers config fields members) (hbehind : IsBlanks behind) :
      IsDocument config fields (before ++ 0x7b :: (members ++ 0x7d :: behind))

/-! ### Values by their names -/

private theorem Field.ofKey?_key (field : Field) : Field.ofKey? (bytesOf field.key) = some field := by
  cases field <;> decide +kernel

private theorem Field.ofKey?_eq_none {said : Bytes} (h : ∀ field : Field, said ≠ bytesOf field.key) :
    Field.ofKey? said = none := by
  rw [Field.ofKey?, List.find?_eq_none]
  intro field _ hkey
  exact h field (beq_iff_eq.1 hkey).symm

theorem Field.mem_all (field : Field) : field ∈ Field.all := by
  cases field <;> decide

private theorem Field.largest_le (field : Field) : field.largest ≤ Json.largestWord := by
  cases field <;> decide

/-- A configuration into which some values of another have been copied. -/
def taking (config other : MissionConfig) (fields : List Field) : MissionConfig :=
  fields.foldl (fun config field => config.set field (other.get field)) config

private theorem taking_append (config other : MissionConfig) (fields later : List Field) :
    config.taking other (fields ++ later) = (config.taking other fields).taking other later :=
  List.foldl_append

private theorem value_taking {other : MissionConfig} (h : other.InWholeMillis) (config : MissionConfig)
    (fields : List Field)
    (field : Field) :
    (config.taking other fields).value field = if field ∈ fields then other.value field else config.value field := by
  induction fields generalizing config with
  | nil => rfl
  | cons first fields ih =>
    have hrest := ih (config.set first (other.get first))
    show ((config.set first (other.get first)).taking other fields).value field = _
    rw [hrest]
    by_cases hfirst : field = first
    · subst hfirst
      simp [value_set_get h]
    · simp [hfirst, value_set_of_ne config _ hfirst]

/-! ### Reading members -/

section

variable {config : MissionConfig} {blanks before name said rest front member : Bytes} {field? : Option Field}

private theorem readKey_close (h : IsBlanks blanks) (first : Bool) (rest : Bytes) :
    readKey first (blanks ++ 0x7d :: rest) = .ok (none, rest) := by
  rw [readKey, Json.skipBlanks_append_cons h (by decide)]
  rfl

private theorem readKey_quote (hbefore : IsBlanks before) (hname : Spells name said) (rest : Bytes) :
    readKey true (before ++ byte '"' :: (name ++ byte '"' :: rest)) = .ok (some said, rest) := by
  have hread := Json.string_append hname rest
  have hquote : Json.isBlank (byte '"') = false := by decide
  have hne : byte '"' ≠ 0x7d := by decide
  rw [readKey, Json.skipBlanks_append_cons hbefore hquote]
  simp only [if_neg hne, if_true, Json.skipBlanks_cons hquote, hread]
  rfl

private theorem readKey_comma (hblanks : IsBlanks blanks) (hbefore : IsBlanks before) (hname : Spells name said)
    (rest : Bytes) :
    readKey false (blanks ++ byte ',' :: (before ++ byte '"' :: (name ++ byte '"' :: rest))) =
      .ok (some said, rest) := by
  have hread := Json.string_append hname rest
  have hquote : Json.isBlank (byte '"') = false := by decide
  have hne : byte ',' ≠ 0x7d := by decide
  rw [readKey, Json.skipBlanks_append_cons hblanks (by decide)]
  simp only [if_neg hne, Bool.false_eq_true, if_false, if_true, Json.skipBlanks_append_cons hbefore hquote, hread]
  rfl

/-- A member is read in the same way at the front of an object and behind a comma. -/
private theorem IsNamed.readKey_comma (h : IsNamed said front) (hblanks : IsBlanks blanks) (rest : Bytes) :
    readKey false (blanks ++ byte ',' :: (front ++ rest)) = readKey true (front ++ rest) := by
  obtain ⟨hbefore, hname, -, -⟩ := h
  simp only [label, List.append_assoc, List.cons_append]
  rw [MissionConfig.readKey_comma hblanks hbefore hname, readKey_quote hbefore hname]

private theorem IsMember.readKey_comma (h : IsMember config field? member) (hblanks : IsBlanks blanks) (rest : Bytes) :
    readKey false (blanks ++ byte ',' :: (member ++ rest)) = readKey true (member ++ rest) := by
  cases h with
  | given _ hfront | unknown hfront =>
    simp only [List.append_assoc]
    exact hfront.readKey_comma hblanks _

/-- What stands behind a name goes on with its colon. -/
theorem IsNamed.readKey (h : IsNamed said front) (rest : Bytes) :
    ∃ between behind, IsBlanks between ∧ IsBlanks behind ∧
      readKey true (front ++ rest) = .ok (some said, between ++ byte ':' :: (behind ++ rest)) := by
  obtain ⟨hbefore, hname, hbetween, hbehind⟩ := h
  refine ⟨_, _, hbetween, hbehind, ?_⟩
  simp only [label, List.append_assoc, List.cons_append]
  exact readKey_quote hbefore hname _

/-- A member is read as a whole, wherever its name was found. -/
theorem readMembers_of_isMember (h : IsMember config field? member) (hrest : Delimits rest) {fuel : Nat} {first : Bool}
    {given : List Field} (hgiven : ∀ field ∈ field?, field ∉ given) (current : MissionConfig) {text : Bytes}
    (hkey : readKey first text = readKey true (member ++ rest)) :
    readMembers (fuel + 1) first given current text =
      readMembers fuel false (field?.toList ++ given) (current.taking config field?.toList) rest := by
  cases h with
  | given field hfront =>
    obtain ⟨between, behind, hbetween, hbehind, hread⟩ := hfront.readKey (bytesOf (toString (config.get field)) ++ rest)
    have hnew : given.contains field = false := by simpa using hgiven field rfl
    have hvalue := Json.whole_append (config.get_le_largest field) field.largest_le hbehind hrest
    rw [List.append_assoc, hread] at hkey
    rw [readMembers, hkey]
    simp only [Field.ofKey?_key, hnew, Json.colon_append hbetween, Except.bind, readValue, hvalue]
    rfl
  | @unknown said front value hfront hsaid hvalue =>
    obtain ⟨between, behind, hbetween, hbehind, hread⟩ := hfront.readKey (value ++ rest)
    rw [List.append_assoc, hread] at hkey
    rw [readMembers, hkey]
    simp only [Field.ofKey?_eq_none hsaid, Json.colon_append hbetween, Except.bind,
      Json.skipValue_append hbehind hvalue hrest]
    rfl

private theorem IsMember.length_pos (h : IsMember config field? member) : 0 < member.length := by
  cases h with
  | given _ hfront | unknown hfront =>
    cases hfront
    simp only [label, List.length_append, List.length_cons]
    omega

theorem readMembers_of_isMembers {fields : List Field} {members : Bytes} (h : IsMembers config fields members)
    (rest : Bytes) {fuel : Nat} {first : Bool} {given : List Field} (hfuel : members.length < fuel)
    (hnodup : fields.Nodup) (hgiven : ∀ field ∈ fields, field ∉ given) (current : MissionConfig) {text : Bytes}
    (hkey : readKey first text = readKey true (members ++ 0x7d :: rest)) :
    readMembers fuel first given current text = .ok (current.taking config fields, rest) := by
  induction h generalizing fuel first given current text with
  | @last field? member blanks hmember hblanks =>
    have hpos := hmember.length_pos
    rw [List.length_append] at hfuel
    obtain ⟨fuel, rfl⟩ : ∃ more, fuel = more + 1 + 1 := ⟨fuel - 2, by omega⟩
    have hclose : Delimits (blanks ++ 0x7d :: rest) :=
      Json.delimits_append hblanks (Json.delimits_cons (by decide) rest)
    rw [List.append_assoc] at hkey
    rw [readMembers_of_isMember hmember hclose (by simpa using hgiven) current hkey, readMembers,
      readKey_close hblanks]
  | @more field? fields member blanks members hmember hblanks hmembers ih =>
    have hpos := hmember.length_pos
    simp only [List.length_append, List.length_cons] at hfuel
    obtain ⟨fuel, rfl⟩ := Nat.exists_eq_add_one_of_ne_zero (Nat.ne_zero_of_lt hfuel)
    have hcomma : Delimits (blanks ++ byte ',' :: (members ++ 0x7d :: rest)) :=
      Json.delimits_append hblanks (Json.delimits_cons (by decide) _)
    rw [List.nodup_append] at hnodup
    obtain ⟨-, hlater, hdistinct⟩ := hnodup
    have hfirst : ∀ field ∈ field?, field ∉ given := fun field hfield =>
      hgiven field (List.mem_append_left _ (Option.mem_toList.2 hfield))
    have hrest : ∀ field ∈ fields, field ∉ field?.toList ++ given := by
      intro field hfield hmem
      rcases List.mem_append.1 hmem with hbefore | hbefore
      · exact hdistinct field hbefore field hfield rfl
      · exact hgiven field (List.mem_append_right _ hfield) hbefore
    simp only [List.append_assoc, List.cons_append] at hkey
    rw [readMembers_of_isMember hmember hcomma hfirst current hkey, taking_append]
    refine ih (by omega) hlater hrest _ ?_
    cases hmembers with
    | last hnext | more hnext =>
      simp only [List.append_assoc]
      exact hnext.readKey_comma hblanks _

end

/-! ### Reading documents -/

section Invariants

variable {motive : MissionConfig → Prop} (hset : ∀ {config} (field : Field) (n : Nat), motive config →
  motive (config.set field n)) {first : Bool} {config later : MissionConfig} {text rest : Bytes}

include hset

private theorem invariant_readValue {field : Field} (h : motive config)
    (hread : readValue field config text = .ok (later, rest)) : motive later := by
  rw [readValue] at hread
  cases hnumber : Json.whole field.largest text <;> rw [hnumber] at hread <;> cases hread
  exact hset field _ h

private theorem invariant_readMembers {fuel : Nat} {given : List Field} (h : motive config)
    (hread : readMembers fuel first given config text = .ok (later, rest)) : motive later := by
  fun_induction readMembers fuel first given config text with
  | case1 | case2 | case4 | case6 | case7 => cases hread
  | case3 =>
    cases hread
    exact h
  | case5 _ _ _ _ _ _ _ _ _ _ _ ih => exact ih h hread
  | case8 _ _ _ _ _ _ behind _ field _ _ _ _ hvalue ih =>
    cases hcolon : Json.colon behind <;> rw [hcolon] at hvalue
    · cases hvalue
    · exact ih (invariant_readValue hset h hvalue) hread

private theorem invariant_readElements {fields : List Field} (h : motive config)
    (hread : readElements first fields config text = .ok (later, rest)) : motive later := by
  fun_induction readElements first fields config text with
  | case1 | case3 | case4 | case6 => cases hread
  | case2 | case5 =>
    cases hread
    exact h
  | case7 _ _ _ _ _ _ _ _ _ hvalue ih => exact ih (invariant_readValue hset h hvalue) hread

/-- What holds of the standard values, whatever numbers are put in their place, holds of every configuration that is
read. -/
private theorem invariant_ofText {text : String} (h : motive standard) (hread : ofText text = .ok later) :
    motive later := by
  have hfront {text rest : Bytes} (hread : read text = .ok (later, rest)) : motive later := by
    rw [read] at hread
    split at hread
    · cases hread
    · split at hread
      · exact invariant_readElements hset h hread
      · split at hread
        · exact invariant_readMembers hset h hread
        · cases hread
  rw [ofText, ofDocument] at hread
  cases hdocument : read (bytesOf text) with
  | error e =>
    rw [hdocument] at hread
    cases hread
  | ok outcome =>
    rw [hdocument] at hread
    simp only at hread
    split at hread <;> cases hread
    exact hfront hdocument

end Invariants

/-- The spans of a configuration that was read are whole milliseconds in 64 bits. -/
theorem inWholeMillis_ofText {text : String} {config : MissionConfig} (hread : ofText text = .ok config) :
    config.InWholeMillis :=
  invariant_ofText (fun field n h => h.set field n) inWholeMillis_standard hread

/-- What is read between the braces is what is read from the document. -/
private theorem ofDocument_braces {before inside behind : Bytes} {config : MissionConfig} (hbefore : IsBlanks before)
    (hbehind : IsBlanks behind)
    (hinside : readMembers ((inside ++ 0x7d :: behind).length + 1) true [] standard (inside ++ 0x7d :: behind) =
      .ok (config, behind)) :
    ofDocument (before ++ 0x7b :: (inside ++ 0x7d :: behind)) = .ok config := by
  have hread : read (before ++ 0x7b :: (inside ++ 0x7d :: behind)) = .ok (config, behind) := by
    rw [read, Json.skipBlanks_append_cons hbefore (by decide)]
    exact hinside
  rw [ofDocument, hread]
  simp [Json.skipBlanks_of_isBlanks hbehind]

private theorem ofDocument_of_isDocument {config : MissionConfig} {fields : List Field} {text : Bytes}
    (h : IsDocument config fields text) (hnodup : fields.Nodup) :
    ofDocument text = .ok (standard.taking config fields) := by
  cases h with
  | empty hbefore hinside hbehind =>
    refine ofDocument_braces hbefore hbehind ?_
    rw [readMembers, readKey_close hinside]
    rfl
  | @members fields before members behind hbefore hmembers hbehind =>
    refine ofDocument_braces hbefore hbehind ?_
    refine readMembers_of_isMembers hmembers behind ?_ hnodup (fun _ _ => List.not_mem_nil) standard rfl
    rw [List.length_append]
    omega

/-! ### Written documents -/

private theorem Field.isPlain_key (field : Field) : ∀ b ∈ bytesOf field.key, Json.IsPlain b := by
  have hall : ((bytesOf field.key).all fun b => decide (Json.IsPlain b)) = true := by cases field <;> decide +kernel
  simpa using hall

private theorem isMember_memberText (config : MissionConfig) (field : Field) :
    IsMember config (some field) (bytesOf (memberText field (config.get field))) := by
  have hquote : bytesOf "\"" = [byte '"'] := by decide +kernel
  have hcolon : bytesOf "\":" = [byte '"', byte ':'] := by decide +kernel
  have hnone : IsBlanks [] := by simp [IsBlanks]
  have hnamed : IsNamed (bytesOf field.key) (label [] (bytesOf field.key) [] []) :=
    .of hnone (Json.spells_of_plain field.isPlain_key) hnone hnone
  have hlayout : bytesOf (memberText field (config.get field)) =
      label [] (bytesOf field.key) [] [] ++ bytesOf (toString (config.get field)) := by
    simp [memberText, label, hquote, hcolon]
  rw [hlayout]
  exact .given field hnamed

private theorem isMembers_intercalate (config : MissionConfig) (field : Field) (fields : List Field) :
    IsMembers config (field :: fields) (bytesOf (String.intercalate ","
      ((field :: fields).map fun field => memberText field (config.get field)))) := by
  have hcomma : bytesOf "," = [byte ','] := by decide +kernel
  have hnone : IsBlanks [] := by simp [IsBlanks]
  induction fields generalizing field with
  | nil =>
    have hlast := IsMembers.last (isMember_memberText config field) hnone
    rw [List.append_nil] at hlast
    rw [List.map_singleton, String.intercalate_singleton]
    exact hlast
  | cons next fields ih =>
    have hmore := IsMembers.more (isMember_memberText config field) hnone (ih next)
    rw [List.map_cons, List.map_cons, String.intercalate_cons_cons, bytesOf_append, bytesOf_append, hcomma,
      List.append_assoc]
    exact hmore

theorem isDocument_toText (config : MissionConfig) : IsDocument config Field.all (bytesOf config.toText) := by
  have hopen : bytesOf "\x7b" = [0x7b] := by decide +kernel
  have hclose : bytesOf "\x7d" = [0x7d] := by decide +kernel
  have hnone : IsBlanks [] := by simp [IsBlanks]
  have hmembers := isMembers_intercalate config .tickPeriod Field.all.tail
  rw [toText, bytesOf_append, bytesOf_append, hopen, hclose, List.append_assoc]
  exact .members hnone hmembers hnone

/-- A configuration whose spans are whole milliseconds in 64 bits.  The text that is written for it is a document with
all its values, and it is read from it as it was.  From a document that gives some of its values, in any order and each
once, among any other members, those are read as they were, and the others are the standard ones. -/
theorem reads_as_written (config : MissionConfig) (h : config.InWholeMillis) :
    IsDocument config Field.all (bytesOf config.toText) ∧
    ofText config.toText = .ok config ∧
    ∀ fields : List Field, fields.Nodup → ∀ text : String, IsDocument config fields (bytesOf text) →
      ∃ read, ofText text = .ok read ∧
        ∀ field, read.value field = if field ∈ fields then config.value field else standard.value field := by
  have hread {fields : List Field} (hnodup : fields.Nodup) {text : String}
      (htext : IsDocument config fields (bytesOf text)) :
      ofText text = .ok (standard.taking config fields) := ofDocument_of_isDocument htext hnodup
  refine ⟨config.isDocument_toText, ?_, ?_⟩
  · have hall : standard.taking config Field.all = config := by
      apply ext_value
      intro field
      rw [value_taking h, if_pos field.mem_all]
    rw [hread (by decide) config.isDocument_toText, hall]
  · intro fields hnodup text htext
    exact ⟨_, hread hnodup htext, value_taking h standard fields⟩

/-- Two values around an extreme one, one under a name with an escape in it, and a list that is skipped. -/
theorem reads_as_written_among_others :
    let config := ((standard.set .tickPeriod 250).set .sailThreshold 18446744073709551615).set .fibonacciTerms 3
    let text := " \x7b\"x\":[1,\x7b\x7d],\"fibo_iterations\" : 3 ,\"tick\\u005fperiod\":250\x7d "
    ofText config.toText = .ok config ∧
      ∃ read, ofText text = .ok read ∧ ∀ field, read.value field =
        if field ∈ [Field.fibonacciTerms, Field.tickPeriod] then config.value field else standard.value field := by
  intro config text
  have hwhole : config.InWholeMillis := ((inWholeMillis_standard.set _ _).set _ _).set _ _
  obtain ⟨-, hback, hread⟩ := reads_as_written config hwhole
  refine ⟨hback, hread _ (by decide) text ?_⟩
  have hnone : Json.IsBlanks [] := by simp [Json.IsBlanks]
  have hspace : Json.IsBlanks [0x20] := by simp [Json.IsBlanks, Json.isBlank]
  have hone : Json.IsText .value [0x31] := by
    have hdigits : Json.IsDigits [0x31] := ⟨List.cons_ne_nil _ _, List.forall_mem_singleton.2 (by decide)⟩
    exact .scalar (.number (.of (.inl rfl) (.inr ⟨hdigits, by decide⟩) (.inl rfl) (.inl rfl)))
  have hlist := Json.IsText.bracketed
    (.more (.list hnone) hone hnone (.last (.list hnone) (.empty .object hnone) hnone))
  have hx : Json.Spells [0x78] [0x78] := .plain (by decide) .nil
  have hfibo := Json.spells_of_plain (Field.isPlain_key .fibonacciTerms)
  have hescape : Json.IsHexWord [0x30, 0x30, 0x35, 0x66] 0x5f :=
    .of (i := 0) (j := 0) (k := 5) (l := 15) (by decide) (by decide) (by decide) (by decide)
  have hperiod : Json.Spells (bytesOf "period") (bytesOf "period") := by
    have hall : ((bytesOf "period").all fun b => decide (Json.IsPlain b)) = true := by decide +kernel
    exact Json.spells_of_plain (by simpa using hall)
  have htick : Json.Spells (0x74 :: 0x69 :: 0x63 :: 0x6b :: byte '\\' :: byte 'u' ::
      ([0x30, 0x30, 0x35, 0x66] ++ bytesOf "period")) (bytesOf (Field.key .tickPeriod)) := by
    have hkey : bytesOf (Field.key .tickPeriod) =
        0x74 :: 0x69 :: 0x63 :: 0x6b :: (Json.encodePoint 0x5f ++ bytesOf "period") := by decide +kernel
    rw [hkey]
    exact .plain (by decide) (.plain (by decide) (.plain (by decide) (.plain (by decide)
      (.numbered hescape (by decide) (by decide) hperiod))))
  have hsaid : ∀ field : Field, [0x78] ≠ bytesOf field.key := by
    intro field
    cases field <;> decide +kernel
  have hmembers := @IsMembers.more config _ _ _ _ _
    (.unknown (.of hnone hx hnone hnone) hsaid hlist) hnone
    (.more (.given .fibonacciTerms (.of hnone hfibo hspace hspace)) hspace
      (.last (.given .tickPeriod (.of hnone htick hnone hnone)) hnone))
  have hdocument := IsDocument.members hspace hmembers hspace
  refine Eq.mp (congrArg (IsDocument _ _) ?_) hdocument
  decide +kernel

end MissionConfig

end Spacecraft
