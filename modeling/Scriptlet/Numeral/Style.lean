import Scriptlet.Numeral.Scientific

set_option autoImplicit false

/-!
The written forms of doubles. A style says which decimals are written positionally and how an
exponent looks; the three styles in use are `plain`, `display` and `document`.
-/
namespace Scriptlet.Numeral

structure Style where
  /-- The digits of a positive double. -/
  digits : Nat → Int → Scientific
  /-- Whether a number whose first digit has this power of ten is written positionally. -/
  isPositional : Int → Bool
  /-- Whether an integer written positionally ends in a point and a zero. -/
  pointZero : Bool
  /-- The least number of digits of an exponent. -/
  exponentWidth : Nat
  /-- Whether zero shows its sign. -/
  signedZero : Bool
  /-- The text of a positive infinity. -/
  infinity : String

def positional (pointZero : Bool) (decimal : Scientific) : List Char :=
  let digits := decimal.digits
  if decimal.leading < 0 then
    ['0', '.'] ++ List.replicate (-decimal.leading - 1).toNat '0' ++ digits
  else
    let whole := decimal.leading.toNat + 1
    if digits.length ≤ whole then
      digits ++ List.replicate (whole - digits.length) '0' ++ if pointZero then ['.', '0'] else []
    else digits.take whole ++ '.' :: digits.drop whole

def exponential (width : Nat) (decimal : Scientific) : List Char :=
  let exponent := Nat.toDigits 10 decimal.leading.natAbs
  let fraction := decimal.digits.tail
  decimal.digits.take 1 ++ (if fraction.isEmpty then [] else '.' :: fraction) ++
    ['e', if decimal.leading < 0 then '-' else '+'] ++
    List.replicate (width - exponent.length) '0' ++ exponent

/-- The digits of a finite double in a style, without its sign. -/
def Style.magnitude (style : Style) (mantissa : Nat) (exponent : Int) : List Char :=
  if mantissa = 0 then if style.pointZero then ['0', '.', '0'] else ['0']
  else
    let decimal := style.digits mantissa exponent
    if style.isPositional decimal.leading then positional style.pointZero decimal
    else exponential style.exponentWidth decimal

def Style.render (style : Style) (x : Float) : String :=
  match Binary.ofFloat x with
  | .nan => "NaN"
  | .infinite negative => (if negative then "-" else "") ++ style.infinity
  | .finite negative mantissa exponent =>
    let showsSign := negative && (mantissa ≠ 0 || style.signedZero)
    String.ofList ((if showsSign then ['-'] else []) ++ style.magnitude mantissa exponent)

/-- Numbers of program text: the fewest digits that read back, never an exponent. -/
def Style.plain : Style where
  digits := shortestDigits .up
  isPositional _ := true
  pointZero := false
  exponentWidth := 1
  signedZero := true
  infinity := "inf"

/-- Numbers as values of a program: sixteen significant digits, an exponent below `1e-4` and from
`1e16` on, and one zero. -/
def Style.display : Style where
  digits := roundedDigits 16
  isPositional leading := -4 ≤ leading && leading < 16
  pointZero := false
  exponentWidth := 2
  signedZero := false
  infinity := "Infinity"

/-- Numbers of a JSON document: the fewest digits that read back, always with a point or an
exponent. -/
def Style.document : Style where
  digits := shortestDigits .even
  isPositional leading := -5 ≤ leading && leading < 16
  pointZero := true
  exponentWidth := 1
  signedZero := true
  infinity := "null"

def plainText (x : Float) : String :=
  Style.plain.render x

def displayText (x : Float) : String :=
  Style.display.render x

/-- A number as it stands in a JSON document, which has none that is not finite. -/
def documentText? (x : Float) : Option String :=
  if x.isFinite then some (Style.document.render x) else none

end Scriptlet.Numeral
