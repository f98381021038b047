import Spacecraft.Config.Json

/-!
# The grammar of JSON

Which texts are blanks, numbers, strings and values, said apart from the readers that take them off the front of a text.
Values in brackets may be nested to any depth, and blanks may stand around every value, name, colon and comma.  What a
string says is written down only where it is a name that is read (`Spells`); in a value that is skipped, halves of pairs
may stand alone.
-/

namespace Spacecraft

namespace Json

/-- Nothing but blanks. -/
def IsBlanks (text : Bytes) : Prop := ∀ b ∈ text, isBlank b = true

/-- One digit or more. -/
def IsDigits (text : Bytes) : Prop := text ≠ [] ∧ ∀ b ∈ text, isDigit b = true

/-! ### Strings -/

/-- A byte that stands for itself in a string. -/
def IsPlain (b : UInt8) : Prop := 0x20 ≤ b ∧ b ≠ byte '"' ∧ b ≠ byte '\\'

instance (b : UInt8) : Decidable (IsPlain b) := inferInstanceAs (Decidable (_ ∧ _))

/-- Four hexadecimal digits and their number. -/
inductive IsHexWord : Bytes → Nat → Prop
  | of {a b c d : UInt8} {i j k l : Nat} (ha : hexDigit? a = some i) (hb : hexDigit? b = some j)
      (hc : hexDigit? c = some k) (hd : hexDigit? d = some l) :
      IsHexWord [a, b, c, d] (((i * 16 + j) * 16 + k) * 16 + l)

/-- What is between the quotes of a string, and the bytes that it says. -/
inductive Spells : Bytes → Bytes → Prop
  | nil : Spells [] []
  | plain {b : UInt8} {text said : Bytes} (hb : IsPlain b) (h : Spells text said) : Spells (b :: text) (b :: said)
  | escaped {b c : UInt8} {text said : Bytes} (hb : escaped? b = some c) (h : Spells text said) :
      Spells (byte '\\' :: b :: text) (c :: said)
  | numbered {word text said : Bytes} {n : Nat} (hword : IsHexWord word n) (hhigh : isHighHalf n = false)
      (hlow : isLowHalf n = false) (h : Spells text said) :
      Spells (byte '\\' :: byte 'u' :: (word ++ text)) (encodePoint n ++ said)
  | paired {word other text said : Bytes} {n m : Nat} (hword : IsHexWord word n) (hother : IsHexWord other m)
      (hhigh : isHighHalf n = true) (hlow : isLowHalf m = true) (h : Spells text said) :
      Spells (byte '\\' :: byte 'u' :: (word ++ byte '\\' :: byte 'u' :: (other ++ text)))
        (encodePoint ((n - 0xd800) * 1024 + (m - 0xdc00) + 0x10000) ++ said)

/-- What is between the quotes of some string. -/
inductive IsStringBody : Bytes → Prop
  | nil : IsStringBody []
  | plain {b : UInt8} {text : Bytes} (hb : IsPlain b) (h : IsStringBody text) : IsStringBody (b :: text)
  | escaped {b c : UInt8} {text : Bytes} (hb : escaped? b = some c) (h : IsStringBody text) :
      IsStringBody (byte '\\' :: b :: text)
  | numbered {word text : Bytes} {n : Nat} (hword : IsHexWord word n) (h : IsStringBody text) :
      IsStringBody (byte '\\' :: byte 'u' :: (word ++ text))

theorem spells_of_plain {text : Bytes} (h : ∀ b ∈ text, IsPlain b) : Spells text text := by
  induction text with
  | nil => exact .nil
  | cons b text ih =>
    rw [List.forall_mem_cons] at h
    exact .plain h.1 (ih h.2)

/-! ### Numbers -/

/-- Digits without a leading zero. -/
def IsWhole (text : Bytes) : Prop := text = [byte '0'] ∨ (IsDigits text ∧ text.head? ≠ some (byte '0'))

/-- A fraction, or nothing. -/
def IsFraction (text : Bytes) : Prop := text = [] ∨ ∃ digits, IsDigits digits ∧ text = byte '.' :: digits

/-- An exponent, or nothing. -/
def IsExponent (text : Bytes) : Prop :=
  text = [] ∨ ∃ letter sign digits, (letter = byte 'e' ∨ letter = byte 'E') ∧
    (sign = [] ∨ sign = [byte '+'] ∨ sign = [byte '-']) ∧ IsDigits digits ∧ text = letter :: (sign ++ digits)

/-- A number. -/
inductive IsNumber : Bytes → Prop
  | of {sign whole fraction exponent : Bytes} (hsign : sign = [] ∨ sign = [byte '-']) (hwhole : IsWhole whole)
      (hfraction : IsFraction fraction) (hexponent : IsExponent exponent) :
      IsNumber (sign ++ (whole ++ (fraction ++ exponent)))

/-! ### Values -/

/-- A value that is neither a list nor an object. -/
inductive IsScalar : Bytes → Prop
  | null : IsScalar [byte 'n', byte 'u', byte 'l', byte 'l']
  | yes : IsScalar [byte 't', byte 'r', byte 'u', byte 'e']
  | no : IsScalar [byte 'f', byte 'a', byte 'l', byte 's', byte 'e']
  | number {text : Bytes} (h : IsNumber text) : IsScalar text
  | string {body : Bytes} (h : IsStringBody body) : IsScalar (byte '"' :: (body ++ [byte '"']))

/-- A name in quotes and its colon, with the blanks before, between and after them. -/
def label (before name between behind : Bytes) : Bytes :=
  before ++ byte '"' :: (name ++ byte '"' :: (between ++ byte ':' :: behind))

/-- What stands before the value of an item inside a bracket. -/
inductive IsFront : Bracket → Bytes → Prop
  | list {blanks : Bytes} (h : IsBlanks blanks) : IsFront .list blanks
  | object {before name between behind : Bytes} (hbefore : IsBlanks before) (hname : IsStringBody name)
      (hbetween : IsBlanks between) (hbehind : IsBlanks behind) :
      IsFront .object (label before name between behind)

/-- The byte that opens a bracket. -/
def Bracket.opening : Bracket → UInt8
  | list => 0x5b
  | object => 0x7b

/-- What a text is taken for. -/
inductive Part where
  | value
  /-- One item or more inside a bracket, with commas between them. -/
  | items (bracket : Bracket)

/-- The texts of values, and of what is inside their brackets. -/
inductive IsText : Part → Bytes → Prop
  | scalar {text : Bytes} (h : IsScalar text) : IsText .value text
  | empty (bracket : Bracket) {blanks : Bytes} (h : IsBlanks blanks) :
      IsText .value (bracket.opening :: (blanks ++ [bracket.closing]))
  | bracketed {bracket : Bracket} {items : Bytes} (h : IsText (.items bracket) items) :
      IsText .value (bracket.opening :: (items ++ [bracket.closing]))
  | last {bracket : Bracket} {front value blanks : Bytes} (hfront : IsFront bracket front) (hvalue : IsText .value value)
      (hblanks : IsBlanks blanks) : IsText (.items bracket) (front ++ (value ++ blanks))
  | more {bracket : Bracket} {front value blanks items : Bytes} (hfront : IsFront bracket front)
      (hvalue : IsText .value value) (hblanks : IsBlanks blanks) (hitems : IsText (.items bracket) items) :
      IsText (.items bracket) (front ++ (value ++ (blanks ++ byte ',' :: items)))

end Json

end Spacecraft
