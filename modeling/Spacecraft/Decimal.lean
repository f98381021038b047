/-!
# Whole numbers as double-precision decimals

A whole number is first rounded to 53 significant bits, a half going to the even neighbour (`roundToDouble`).  Its text
has the fewest digits that round back to the same double, the nearest of them, filled up with zeros; it has neither an
exponent nor a point.
-/

namespace Spacecraft

namespace Decimal

/-- The number of binary digits. -/
def bitLength (n : Nat) : Nat := if n = 0 then 0 else Nat.log2 n + 1

/-- A number rounded to a multiple of a unit, a half going to the even multiple. -/
def roundTo (unit n : Nat) : Nat :=
  let q := n / unit
  let r := n % unit
  if 2 * r < unit then q * unit
  else if unit < 2 * r then (q + 1) * unit
  else if q % 2 = 0 then q * unit else (q + 1) * unit

/-- A number rounded to 53 significant bits. -/
def roundToDouble (n : Nat) : Nat := roundTo (1 <<< (bitLength n - 53)) n

/-- The largest whole number of a double is below this. -/
def doubleBound : Nat := 1 <<< 1024

/-- A one with so many zeros. -/
def powerOfTen : Nat → Nat
  | 0 => 1
  | e + 1 => 10 * powerOfTen e

/-- The number of decimal digits. -/
def digitCount (n : Nat) : Nat := (Nat.toDigits 10 n).length

/-- The multiple of a unit that stands for a double: of its two neighbours one that rounds back to it, the nearer one
if both do. -/
def candidate? (unit value : Nat) : Option Nat :=
  let low := value / unit * unit
  let high := low + unit
  let lowFits := roundToDouble low = value
  let highFits := roundToDouble high = value
  if lowFits ∧ (¬ highFits ∨ value - low ≤ high - value) then some low
  else if highFits then some high
  else none

/-- The shortest whole number that rounds to the double `value`, searched from the unit `powerOfTen e` downwards. -/
def shortestFrom (value : Nat) : Nat → Nat
  | 0 => value
  | e + 1 =>
    match candidate? (powerOfTen (e + 1)) value with
    | some n => n
    | none => shortestFrom value e

/-- The text of the double nearest to a whole number. -/
def ofNat (n : Nat) : String :=
  let value := roundToDouble n
  toString (shortestFrom value (digitCount value))

/-- The text of the double nearest to an integer. -/
def ofInt (i : Int) : String := if i < 0 then "-" ++ ofNat i.natAbs else ofNat i.natAbs

end Decimal

end Spacecraft
