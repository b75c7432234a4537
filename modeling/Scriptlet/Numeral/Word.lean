import Scriptlet.Numeral.Binary

set_option autoImplicit false

/-!
Doubles as words, indices and remainders: the whole part modulo `2 ^ 32`, the naturals that can be
an index, and the remainder of a truncated division.
-/
namespace Scriptlet.Numeral

def largestIndex : Nat := Nat.pow 2 32 - 1

/-- The whole part of `mantissa * 2 ^ exponent`. -/
def wholePart (mantissa : Nat) (exponent : Int) : Nat :=
  mantissa * Nat.pow 2 exponent.toNat / Nat.pow 2 (-exponent).toNat

/-- The whole part of a double modulo `2 ^ 32`, as a signed word; zero if it is not finite. -/
def toWord (x : Float) : Int32 :=
  match Binary.ofFloat x with
  | .finite negative mantissa exponent =>
    let whole : Int := wholePart mantissa exponent
    Int32.ofInt (if negative then -whole else whole)
  | _ => 0

/-- The index a double denotes: it is whole, not negative, and at most `largestIndex`. -/
def toIndex? (x : Float) : Option Nat :=
  match Binary.ofFloat x with
  | .finite negative mantissa exponent =>
    let whole := wholePart mantissa exponent
    let isWhole := whole * Nat.pow 2 (-exponent).toNat = mantissa * Nat.pow 2 exponent.toNat
    let isNegative := negative = true ∧ mantissa ≠ 0
    if isWhole ∧ ¬isNegative ∧ whole ≤ largestIndex then some whole else none
  | _ => none

/-- The remainder of the division that rounds toward zero. It has the sign of the dividend, and is
exact. -/
def remainder (x y : Float) : Float :=
  match Binary.ofFloat x, Binary.ofFloat y with
  | .finite negative m p, .finite _ n q =>
    if n = 0 then 0.0 / 0.0
    else
      let place := min p q
      let rest := (m * Nat.pow 2 (p - place).toNat) % (n * Nat.pow 2 (q - place).toNat)
      floatOfParts negative rest place
  | .finite .., .infinite _ => x
  | _, _ => 0.0 / 0.0

end Scriptlet.Numeral
