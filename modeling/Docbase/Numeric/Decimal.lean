/-
Decimal numbers, and the text of a double: the fewest decimal digits that read
back as the same double, of those the nearest to it, written positionally.

`shortest` tries one digit, then two, and so on to seventeen. For each count the
only candidates are the two neighbours of the double with that many digits.
-/
import Docbase.Numeric.Double

namespace Docbase

/-- The number `digits * 10 ^ exponent`. -/
structure Decimal where
  digits : Nat
  exponent : Int
  deriving DecidableEq

namespace Decimal

/-- A power of ten. -/
def tens (n : Nat) : Nat := Nat.pow 10 n

/-- The double nearest to a decimal. -/
def toDouble (d : Decimal) : Double :=
  Double.ofRatio false (d.digits * tens d.exponent.toNat) (tens (-d.exponent).toNat)

/-- The value of a run of decimal digits. -/
def ofDigitChars (cs : List Char) : Nat :=
  cs.foldl (fun n c => n * 10 + (c.toNat - '0'.toNat)) 0

/-- The decimal written as `whole.fraction`. -/
def ofPlaces (whole fraction : List Char) : Decimal :=
  ⟨ofDigitChars (whole ++ fraction), -(fraction.length : Int)⟩

def digitCount (n : Nat) : Nat := (Nat.toDigits 10 n).length

/-- The power of ten at or just below the quotient of two positive numbers. -/
def decimalExponent (num den : Nat) : Int :=
  if den ≤ num then (digitCount (num / den) : Int) - 1
  else -(digitCount ((den - 1) / num) : Int)

/-- A step up from nines ends in one digit too many, which is a zero. -/
def carry (count : Nat) (d : Decimal) : Decimal :=
  if d.digits = tens count then ⟨tens (count - 1), d.exponent + 1⟩ else d

/-- The better of the two decimals of `count` digits next to a positive double, of
those that read back as it: the nearer one, and the upper one in a tie. -/
def ofDigitCount? (x : Double) (count : Nat) : Option Decimal :=
  let num := x.numerator
  let den := x.denominator
  let exponent := decimalExponent num den - count + 1
  let num := num * tens (-exponent).toNat
  let den := den * tens exponent.toNat
  let lower : Decimal := ⟨num / den, exponent⟩
  let upper := carry count ⟨num / den + 1, exponent⟩
  let twice := 2 * (num % den)
  match lower.toDouble == x, upper.toDouble == x with
  | true, true => some (if twice < den then lower else upper)
  | true, false => some lower
  | false, true => some upper
  | false, false => none

/-- All digits of a positive finite double. -/
def exact (x : Double) : Decimal :=
  if 0 ≤ x.exponent then ⟨x.numerator, 0⟩
  else ⟨x.significand * Nat.pow 5 (-x.exponent).toNat, x.exponent⟩

/-- The fewest digits that read back as the positive finite double `x`. -/
def shortest (x : Double) : Decimal :=
  ((List.range 17).findSome? fun n => ofDigitCount? x (n + 1)).getD (exact x)

/-- A decimal in positional notation, with no exponent however large or small it is. -/
def positional (d : Decimal) : List Char :=
  let digits := Nat.toDigits 10 d.digits
  if 0 ≤ d.exponent then digits ++ List.replicate d.exponent.toNat '0'
  else
    let places := (-d.exponent).toNat
    if places < digits.length then
      digits.take (digits.length - places) ++ '.' :: digits.drop (digits.length - places)
    else '0' :: '.' :: List.replicate (places - digits.length) '0' ++ digits

end Decimal

/-- The text of a double: `1`, `-0`, `0.5`, `NaN`, `inf`, `-inf`. -/
def Double.text (x : Double) : String :=
  if x.isNaN then "NaN"
  else
    let sign := if x.isNegative then ['-'] else []
    let size := Double.ofMagnitude false x.magnitude
    let body :=
      if x.isInfinite then ['i', 'n', 'f']
      else if x.magnitude = 0 then ['0']
      else (Decimal.shortest size).positional
    String.ofList (sign ++ body)

end Docbase
