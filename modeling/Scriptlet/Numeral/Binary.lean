set_option autoImplicit false

/-!
Doubles as exact numbers. A finite double is a sign, a natural mantissa and a power of two, so
that printing, truncation and remainders are arithmetic on naturals.
-/
namespace Scriptlet.Numeral

/-- The exact content of a double: a finite one is `mantissa * 2 ^ exponent`, with its sign. -/
inductive Binary where
  | nan
  | infinite (negative : Bool)
  | finite (negative : Bool) (mantissa : Nat) (exponent : Int)
  deriving DecidableEq, Repr

/-- The content of a bit pattern: one sign bit, eleven of the exponent, and the fraction. -/
def Binary.ofBits (bits : UInt64) : Binary :=
  let negative := bits >>> 63 == 1
  let biased := ((bits >>> 52) &&& 0x7FF).toNat
  let fraction := (bits &&& 0xFFFFFFFFFFFFF).toNat
  if biased = 0x7FF then
    if fraction = 0 then .infinite negative else .nan
  else if biased = 0 then .finite negative fraction (-1074)
  else .finite negative (Nat.pow 2 52 + fraction) (biased - 1075)

def Binary.ofFloat (x : Float) : Binary :=
  .ofBits x.toBits

/-- The double of a sign, a mantissa below `2 ^ 53` and a power of two, when that number is one:
the mantissa is shifted until its leading bit stands in the hidden place, or until the exponent is
the least one. -/
def floatOfParts (negative : Bool) (mantissa : Nat) (exponent : Int) : Float :=
  let sign : Nat := if negative then Nat.pow 2 63 else 0
  let magnitude : Nat :=
    if mantissa = 0 then 0
    else
      let biased : Int := mantissa.log2 + exponent + 1023
      if biased ≤ 0 then mantissa * Nat.pow 2 (exponent + 1074).toNat
      else
        biased.toNat * Nat.pow 2 52 + (mantissa * Nat.pow 2 (52 - mantissa.log2) - Nat.pow 2 52)
  Float.ofBits (sign + magnitude).toUInt64

/-- The fraction `mantissa * 2 ^ exponent / 10 ^ place`, as numerator and denominator. -/
def scaled (mantissa : Nat) (exponent place : Int) : Nat × Nat :=
  (mantissa * Nat.pow 2 exponent.toNat * Nat.pow 10 (-place).toNat,
    Nat.pow 2 (-exponent).toNat * Nat.pow 10 place.toNat)

/-- Whether `mantissa * 2 ^ exponent < 10 ^ place`. -/
def isBelowPower (mantissa : Nat) (exponent place : Int) : Bool :=
  let (numerator, denominator) := scaled mantissa exponent place
  numerator < denominator

/-- The least power of ten above a positive number. The first guess takes 0.30103 decimal digits
for a binary one, which is at most two too small. -/
def decimalScale (mantissa : Nat) (exponent : Int) : Int :=
  let guess := ((mantissa.log2 + exponent) * 30103).fdiv 100000
  if isBelowPower mantissa exponent guess then guess
  else if isBelowPower mantissa exponent (guess + 1) then guess + 1
  else guess + 2

end Scriptlet.Numeral
