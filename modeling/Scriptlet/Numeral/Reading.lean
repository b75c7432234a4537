import Scriptlet.Numeral.Word
import Scriptlet.Text.Basic

set_option autoImplicit false

/-!
Reading decimal numbers and indices. A decimal is digits with an optional point and an optional
exponent; its double is the nearest one, and a half goes to the even mantissa.
-/
namespace Scriptlet.Numeral

def leadingDigits (cs : List Char) : List Char :=
  cs.takeWhile Char.isDigit

def digitsValue (digits : List Char) : Nat :=
  digits.foldl (fun value c => 10 * value + (c.toNat - '0'.toNat)) 0

def startsWithSign : List Char → Bool
  | '-' :: _ => true
  | '+' :: _ => true
  | _ => false

/-- The parts of a decimal without its sign. -/
structure Decimal where
  whole : List Char
  fraction : List Char
  exponent : Int
  deriving DecidableEq, Repr

/-- The double nearest to `mantissa * 10 ^ exponent`. Far outside the range of doubles the power of
ten decides alone. -/
def nearestFloat (mantissa : Nat) (exponent : Int) : Float :=
  if mantissa = 0 then 0.0
  else if 400 < exponent then 1.0 / 0.0
  else if (mantissa.log2 : Int) + 1 ≤ 3 * (-exponent - 400) then 0.0
  else Float.ofScientific mantissa (exponent < 0) exponent.natAbs

def Decimal.toFloat (decimal : Decimal) : Float :=
  nearestFloat (digitsValue (decimal.whole ++ decimal.fraction))
    (decimal.exponent - decimal.fraction.length)

/-- The exponent at the start of a text and the number of its characters. No mark of one stands for
zero; a mark without digits has no value. -/
def exponentAt : List Char → Option Int × Nat
  | [] => (some 0, 0)
  | mark :: rest =>
    if mark == 'e' || mark == 'E' then
      let signLength := if startsWithSign rest then 1 else 0
      let digits := leadingDigits (rest.drop signLength)
      let value : Int := digitsValue digits
      if digits.isEmpty then (none, 1 + signLength)
      else (some (if rest.head? == some '-' then -value else value), 1 + signLength + digits.length)
    else (some 0, 0)

/-- The number that a text denotes, white space at its ends aside: an optional sign, digits with at
most one point among or beside them, and an optional exponent. -/
def numericText? (text : String) : Option Float :=
  let signed := Text.trim text.toList
  let cs := if startsWithSign signed then signed.tail else signed
  let whole := leadingDigits cs
  let cs := cs.drop whole.length
  let fraction := if cs.head? == some '.' then leadingDigits cs.tail else []
  let cs := if cs.head? == some '.' then cs.drop (fraction.length + 1) else cs
  if whole.isEmpty && fraction.isEmpty then none
  else match exponentAt cs with
    | (some exponent, length) =>
      let value := Decimal.toFloat ⟨whole, fraction, exponent⟩
      if length < cs.length then none
      else some (if signed.head? == some '-' then -value else value)
    | (none, _) => none

/-- The index that a text spells: decimal digits without a leading zero, at most `largestIndex`. -/
def indexText? (text : String) : Option Nat :=
  let cs := text.toList
  if cs.isEmpty || !cs.all Char.isDigit || (1 < cs.length && cs.head? == some '0') then none
  else
    let value := digitsValue cs
    if value ≤ largestIndex then some value else none

end Scriptlet.Numeral
