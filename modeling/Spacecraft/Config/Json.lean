import Spacecraft.Decimal
import Spacecraft.LittleEndian

/-!
# Reading JSON

Readers for the pieces of a JSON document: blanks, strings, numbers, and whole values that are only skipped.  A reader
takes bytes from the front and says whether the text is malformed, holds something unsuitable, or ended early; the
first problem from left to right decides.
-/

namespace Spacecraft

namespace Json

/-- Why a document was not read. -/
inductive Fault where
  /-- The text is not JSON. -/
  | malformed
  /-- The text is JSON so far, but not what was asked for. -/
  | unsuitable
  /-- The text ended too early. -/
  | unfinished
deriving DecidableEq, Repr

/-- The short name of a fault. -/
def Fault.kind : Fault → String
  | .malformed => "Syntax"
  | .unsuitable => "Data"
  | .unfinished => "Eof"

/-- What a reader takes from the front of a text, and the text behind it. -/
abbrev Read (α : Type) := Except Fault (α × Bytes)

/-! ### Bytes with a meaning -/

/-- The byte of an ASCII character. -/
def byte (c : Char) : UInt8 := UInt8.ofNat c.toNat

/-- A space, tab, line feed or carriage return. -/
def isBlank (b : UInt8) : Bool := b == 0x20 || b == 0x09 || b == 0x0a || b == 0x0d

/-- One of the ten digits. -/
def isDigit (b : UInt8) : Bool := 0x30 ≤ b && b ≤ 0x39

/-- The text from its first byte that is no blank. -/
def skipBlanks (text : Bytes) : Bytes := text.dropWhile isBlank

/-- The number that a row of digits denotes, read after another number. -/
def digitsFrom (n : Nat) (digits : Bytes) : Nat := digits.foldl (fun n d => 10 * n + (d.toNat - 48)) n

/-- The value of a hexadecimal digit. -/
def hexDigit? (b : UInt8) : Option Nat :=
  if isDigit b then some (b.toNat - 48)
  else if 0x61 ≤ b && b ≤ 0x66 then some (b.toNat - 87)
  else if 0x41 ≤ b && b ≤ 0x46 then some (b.toNat - 55)
  else none

/-! ### Words -/

/-- Take an expected row of bytes. -/
def literal : Bytes → Bytes → Except Fault Bytes
  | [], text => .ok text
  | _ :: _, [] => .error .unfinished
  | e :: expected, b :: text => if b = e then literal expected text else .error .malformed

/-! ### Strings -/

/-- Four hexadecimal digits. -/
def hexWord : Bytes → Read Nat
  | a :: b :: c :: d :: rest =>
    match hexDigit? a, hexDigit? b, hexDigit? c, hexDigit? d with
    | some a, some b, some c, some d => .ok (((a * 16 + b) * 16 + c) * 16 + d, rest)
    | _, _, _, _ => .error .malformed
  | _ => .error .unfinished

/-- The bytes of a code point in a text. -/
def encodePoint (n : Nat) : Bytes :=
  if n < 0x80 then [UInt8.ofNat n]
  else if n < 0x800 then [UInt8.ofNat (0xc0 + n / 64), UInt8.ofNat (0x80 + n % 64)]
  else if n < 0x10000 then
    [UInt8.ofNat (0xe0 + n / 4096), UInt8.ofNat (0x80 + n / 64 % 64), UInt8.ofNat (0x80 + n % 64)]
  else
    [UInt8.ofNat (0xf0 + n / 262144), UInt8.ofNat (0x80 + n / 4096 % 64), UInt8.ofNat (0x80 + n / 64 % 64),
      UInt8.ofNat (0x80 + n % 64)]

/-- The word is the first half of a pair. -/
def isHighHalf (n : Nat) : Bool := 0xd800 ≤ n && n ≤ 0xdbff

/-- The word is the second half of a pair. -/
def isLowHalf (n : Nat) : Bool := 0xdc00 ≤ n && n ≤ 0xdfff

/-- A character given by its number, after the letter that announces it.  Halves have to come in pairs. -/
def numberedChar (text : Bytes) : Read Bytes :=
  match hexWord text with
  | .error e => .error e
  | .ok (n, rest) =>
    if isLowHalf n then .error .malformed
    else if !isHighHalf n then .ok (encodePoint n, rest)
    else
      match literal [0x5c, 0x75] rest with
      | .error e => .error e
      | .ok rest =>
        match hexWord rest with
        | .error e => .error e
        | .ok (m, rest) =>
          if isLowHalf m then .ok (encodePoint ((n - 0xd800) * 1024 + (m - 0xdc00) + 0x10000), rest)
          else .error .malformed

/-- The byte that a letter after a backslash stands for. -/
def escaped? (b : UInt8) : Option UInt8 :=
  if b = byte '"' || b = byte '\\' || b = byte '/' then some b
  else if b = byte 'b' then some 0x08
  else if b = byte 'f' then some 0x0c
  else if b = byte 'n' then some 0x0a
  else if b = byte 'r' then some 0x0d
  else if b = byte 't' then some 0x09
  else none

/-- What follows a backslash. -/
def escape : Bytes → Read Bytes
  | [] => .error .unfinished
  | b :: rest =>
    if b = byte 'u' then numberedChar rest
    else
      match escaped? b with
      | some c => .ok ([c], rest)
      | none => .error .malformed

/-- What follows a backslash in a string that is only skipped; halves may stand alone. -/
def looseEscape : Bytes → Read Bytes
  | [] => .error .unfinished
  | b :: rest =>
    if b = byte 'u' then (hexWord rest).map fun (_, rest) => ([], rest)
    else
      match escaped? b with
      | some c => .ok ([c], rest)
      | none => .error .malformed

/-- The rest of a string after its opening quote, in at most so many pieces. -/
def stringBody (escape : Bytes → Read Bytes) : Nat → Bytes → Read Bytes
  | 0, _ | _, [] => .error .unfinished
  | pieces + 1, b :: rest =>
    if b = byte '"' then .ok ([], rest)
    else if b = byte '\\' then
      match escape rest with
      | .error e => .error e
      | .ok (part, rest) => (stringBody escape pieces rest).map fun (tail, rest) => (part ++ tail, rest)
    else if b < 0x20 then .error .malformed
    else (stringBody escape pieces rest).map fun (tail, rest) => (b :: tail, rest)

/-- The rest of a string after its opening quote. -/
def string (text : Bytes) : Read Bytes := stringBody escape (text.length + 1) text

/-- Skip the rest of a string after its opening quote. -/
def skipString (text : Bytes) : Except Fault Bytes :=
  (stringBody looseEscape (text.length + 1) text).map Prod.snd

/-! ### Numbers -/

/-- The largest number that is kept digit by digit. -/
def largestWord : Nat := 18446744073709551615

/-- The leading digits of a number as long as it stays in a word, and how many digits are left out. -/
def significand (n : Nat) : Bytes → Nat × Nat
  | [] => (n, 0)
  | d :: digits =>
    if largestWord < digitsFrom n [d] then (n, digits.length + 1) else significand (digitsFrom n [d]) digits

/-- A significand times a power of ten is too large for a double. -/
def isTooLarge (significand : Nat) (exponent : Int) : Bool :=
  decide (significand ≠ 0 ∧ 0 ≤ exponent ∧
    (308 < exponent ∨
      Decimal.doubleBound ≤ Decimal.roundToDouble
        (Decimal.roundToDouble significand * Decimal.roundToDouble (Decimal.powerOfTen exponent.toNat))))

/-- The integer part of a number. -/
def integerDigits : Bytes → Read Bytes
  | [] => .error .unfinished
  | b :: rest =>
    if b = byte '0' then
      match rest with
      | d :: _ => if isDigit d then .error .malformed else .ok ([b], rest)
      | [] => .ok ([b], rest)
    else if isDigit b then .ok (b :: rest.takeWhile isDigit, rest.dropWhile isDigit)
    else .error .malformed

/-- At least one digit. -/
def someDigits (text : Bytes) : Read Bytes :=
  match text with
  | [] => .error .unfinished
  | b :: _ => if isDigit b then .ok (text.takeWhile isDigit, text.dropWhile isDigit) else .error .malformed

/-- The fraction of a number, if it has one. -/
def fraction? : Bytes → Read (Option Bytes)
  | [] => .ok (none, [])
  | b :: rest =>
    if b = byte '.' then (someDigits rest).map fun (digits, rest) => (some digits, rest) else .ok (none, b :: rest)

/-- The exponent of a number, if it has one. -/
def exponent? : Bytes → Read (Option Int)
  | [] => .ok (none, [])
  | b :: rest =>
    if b = byte 'e' || b = byte 'E' then
      let (negative, rest) := match rest with
        | s :: rest' => if s = byte '-' then (true, rest') else if s = byte '+' then (false, rest') else (false, rest)
        | [] => (false, [])
      (someDigits rest).map fun (digits, rest) =>
        let n : Int := digitsFrom 0 digits
        (some (if negative then -n else n), rest)
    else .ok (none, b :: rest)

/-- A number without its sign: its value if it is whole and fits a word.  A number too large for a double is
malformed. -/
def unsigned (text : Bytes) : Read (Option Nat) :=
  match integerDigits text with
  | .error e => .error e
  | .ok (digits, rest) =>
    match fraction? rest with
    | .error e => .error e
    | .ok (fraction, rest) =>
      match exponent? rest with
      | .error e => .error e
      | .ok (exponent, rest) =>
        let (whole, dropped) := significand 0 digits
        let (kept, ignored) := significand whole (fraction.getD [])
        let scale : Int := dropped - ((fraction.getD []).length - ignored : Nat)
        if isTooLarge kept (scale + exponent.getD 0) then .error .malformed
        else if fraction.isNone && exponent.isNone && dropped == 0 then .ok (some whole, rest)
        else .ok (none, rest)

/-- Skip a number without its sign.  Any size will do, but an early end counts as malformed. -/
def skipUnsigned (text : Bytes) : Except Fault Bytes :=
  let strict {α : Type} (r : Read α) : Except Fault Bytes :=
    match r with
    | .error _ => .error .malformed
    | .ok (_, rest) => .ok rest
  match strict (integerDigits text) with
  | .error e => .error e
  | .ok rest =>
    match strict (fraction? rest) with
    | .error e => .error e
    | .ok rest => strict (exponent? rest)

/-! ### Values -/

/-- The fault of meeting a value of another kind: its own fault if it is broken. -/
def otherValue (text : Bytes) : Fault :=
  let faultOf {α : Type} (r : Except Fault α) : Fault :=
    match r with
    | .error e => e
    | .ok _ => .unsuitable
  match text with
  | [] => .unfinished
  | b :: rest =>
    if b = byte 'n' then faultOf (literal [byte 'u', byte 'l', byte 'l'] rest)
    else if b = byte 't' then faultOf (literal [byte 'r', byte 'u', byte 'e'] rest)
    else if b = byte 'f' then faultOf (literal [byte 'a', byte 'l', byte 's', byte 'e'] rest)
    else if b = byte '-' then faultOf (unsigned rest)
    else if isDigit b then faultOf (unsigned text)
    else if b = byte '"' then faultOf (string rest)
    else if b = byte '[' || b = 0x7b then .unsuitable
    else .malformed

/-- A whole number from zero to a largest one. -/
def whole (largest : Nat) (text : Bytes) : Read Nat :=
  match skipBlanks text with
  | [] => .error .unfinished
  | b :: rest =>
    if isDigit b then
      match unsigned (b :: rest) with
      | .error e => .error e
      | .ok (some n, rest) => if n ≤ largest then .ok (n, rest) else .error .unsuitable
      | .ok (none, _) => .error .unsuitable
    else .error (otherValue (b :: rest))

/-- The colon between a member name and its value. -/
def colon (text : Bytes) : Except Fault Bytes :=
  match skipBlanks text with
  | [] => .error .unfinished
  | b :: rest => if b = byte ':' then .ok rest else .error .malformed

/-- An open bracket around a skipped value. -/
inductive Bracket where
  | list
  | object
deriving DecidableEq, Repr

/-- The byte that closes a bracket. -/
def Bracket.closing : Bracket → UInt8
  | list => 0x5d
  | object => 0x7d

/-- Skip a member name and its colon. -/
def skipName (text : Bytes) : Except Fault Bytes :=
  match skipBlanks text with
  | [] => .error .unfinished
  | b :: rest =>
    if b = byte '"' then
      match skipString rest with
      | .error e => .error e
      | .ok rest => colon rest
    else .error .malformed

/-- Skip what has to stand before the next value inside a bracket. -/
def skipToValue (bracket : Bracket) (text : Bytes) : Except Fault Bytes :=
  match bracket with
  | .list => .ok text
  | .object => skipName text

/-- Skip a value that is neither a list nor an object. -/
def skipScalar : Bytes → Except Fault Bytes
  | [] => .error .unfinished
  | b :: rest =>
    if b = byte 'n' then literal [byte 'u', byte 'l', byte 'l'] rest
    else if b = byte 't' then literal [byte 'r', byte 'u', byte 'e'] rest
    else if b = byte 'f' then literal [byte 'a', byte 'l', byte 's', byte 'e'] rest
    else if b = byte '-' then skipUnsigned rest
    else if isDigit b then skipUnsigned (b :: rest)
    else if b = byte '"' then skipString rest
    else .error .malformed

mutual

/-- Skip a value inside open brackets, and then what follows until all brackets are closed. -/
def skipNested : Nat → List Bracket → Bytes → Except Fault Bytes
  | 0, _, _ => .error .unfinished
  | fuel + 1, open_, text =>
    match skipBlanks text with
    | [] => .error .unfinished
    | b :: rest =>
      if b = byte '[' then skipOpened fuel .list open_ rest
      else if b = 0x7b then skipOpened fuel .object open_ rest
      else
        match skipScalar (b :: rest) with
        | .error e => .error e
        | .ok rest => skipAfter fuel open_ rest

/-- Skip on from an opening bracket. -/
def skipOpened : Nat → Bracket → List Bracket → Bytes → Except Fault Bytes
  | 0, _, _, _ => .error .unfinished
  | fuel + 1, bracket, open_, text =>
    match skipBlanks text with
    | [] => .error .unfinished
    | b :: rest =>
      if b = bracket.closing then skipAfter fuel open_ rest
      else
        match skipToValue bracket (b :: rest) with
        | .error e => .error e
        | .ok rest => skipNested fuel (bracket :: open_) rest

/-- Skip on from the end of a value. -/
def skipAfter : Nat → List Bracket → Bytes → Except Fault Bytes
  | 0, _, _ => .error .unfinished
  | _ + 1, [], text => .ok text
  | fuel + 1, bracket :: open_, text =>
    match skipBlanks text with
    | [] => .error .unfinished
    | b :: rest =>
      if b = bracket.closing then skipAfter fuel open_ rest
      else if b = byte ',' then
        match skipToValue bracket rest with
        | .error e => .error e
        | .ok rest => skipNested fuel (bracket :: open_) rest
      else .error .malformed

end

/-- Skip a value. -/
def skipValue (text : Bytes) : Except Fault Bytes := skipNested (2 * text.length + 3) [] text

end Json

end Spacecraft
