import Scriptlet.Numeral.Binary

set_option autoImplicit false

/-!
Decimal digits of a positive number `mantissa * 2 ^ exponent`: either a fixed count of them, or the
fewest that read back to the same double. Both are exact, by arithmetic on naturals.
-/
namespace Scriptlet.Numeral

/-- A positive decimal: its digits without zeros at the end, and the power of ten of the first. -/
structure Scientific where
  digits : List Char
  leading : Int
  deriving DecidableEq, Repr

def dropTrailingZeros (digits : List Char) : List Char :=
  (digits.reverse.dropWhile (· == '0')).reverse

/-- The decimal `number * 10 ^ place`. -/
def Scientific.ofNat (number : Nat) (place : Int) : Scientific :=
  let digits := Nat.toDigits 10 number
  ⟨dropTrailingZeros digits, place + digits.length - 1⟩

/-- What is chosen of two decimals that are equally close. -/
inductive Tie where
  | even
  | up
  deriving DecidableEq, Repr

def roundFraction (tie : Tie) (numerator denominator : Nat) : Nat :=
  let quotient := numerator / denominator
  match compare (2 * (numerator % denominator)) denominator with
  | .lt => quotient
  | .gt => quotient + 1
  | .eq => if tie = .even ∧ quotient % 2 = 0 then quotient else quotient + 1

/-- A positive number rounded to a count of significant digits, a half going to the even digit. -/
def roundedDigits (count : Nat) (mantissa : Nat) (exponent : Int) : Scientific :=
  let place := decimalScale mantissa exponent - count
  let (numerator, denominator) := scaled mantissa exponent place
  .ofNat (roundFraction .even numerator denominator) place

/-- Whether `number * 10 ^ place` lies among the reals that round to `mantissa * 2 ^ exponent`. The
ends of that interval, in quarters of the last binary place, belong to it if the mantissa is even;
below a power of two the gap to the next double is half as wide. -/
def readsBack (mantissa : Nat) (exponent : Int) (number : Nat) (place : Int) : Bool :=
  let isPower := mantissa = Nat.pow 2 52 ∧ exponent ≠ -1074
  let lower := if isPower then 4 * mantissa - 1 else 4 * mantissa - 2
  let upper := 4 * mantissa + 2
  let (low, scale) := scaled lower (exponent - 2) place
  let (high, _) := scaled upper (exponent - 2) place
  let middle := number * scale
  if mantissa % 2 = 0 then low ≤ middle && middle ≤ high else low < middle && middle < high

/-- The decimal of a count of digits that is closest to a positive number, among the two next to
it, if one of them reads back. -/
def shortestOfLength? (tie : Tie) (mantissa : Nat) (exponent : Int) (count : Nat) :
    Option Scientific :=
  let place := decimalScale mantissa exponent - count
  let (numerator, denominator) := scaled mantissa exponent place
  let below := numerator / denominator
  let nearest := roundFraction tie numerator denominator
  let other := if nearest = below then below + 1 else below
  if readsBack mantissa exponent nearest place then some (.ofNat nearest place)
  else if readsBack mantissa exponent other place then some (.ofNat other place)
  else none

/-- The fewest digits that read back to a positive double. Seventeen are always enough. -/
def shortestDigits (tie : Tie) (mantissa : Nat) (exponent : Int) : Scientific :=
  match (List.range' 1 17).findSome? (shortestOfLength? tie mantissa exponent) with
  | some decimal => decimal
  | none => roundedDigits 17 mantissa exponent

end Scriptlet.Numeral
