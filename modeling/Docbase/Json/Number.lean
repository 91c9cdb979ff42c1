/-
The values of JSON numbers. Digits are collected into a 64-bit significand;
those that no longer fit only move the point. A number with a point or an
exponent, or one too large for a 64-bit integer, is a double: the significand,
rounded, times or divided by a rounded power of ten.
-/
import Docbase.Json.Token
import Docbase.Numeric.Integer

namespace Docbase.Json

/-- What a JSON number stands for. -/
inductive Number where
  | natural (n : Nat)
  /-- An integer below zero that fits 64 bits. -/
  | negative (i : Int)
  | double (x : Double)

/-- Digits collected so far: the significand, and how far the point is to be moved. -/
structure Digits where
  significand : Nat
  exponent : Int

def digitValue (c : Char) : Nat := c.toNat - '0'.toNat

/-- Adds the digits of the whole part; from the first that does not fit, all are only counted. -/
def Digits.pushWhole (d : Digits) : List Char → Digits
  | [] => d
  | c :: rest =>
    let next := d.significand * 10 + digitValue c
    if next ≤ Integer.countMax then pushWhole { d with significand := next } rest
    else { d with exponent := d.exponent + (rest.length + 1) }

/-- Adds the digits after the point; from the first that does not fit, all are dropped. -/
def Digits.pushFraction (d : Digits) : List Char → Digits
  | [] => d
  | c :: rest =>
    let next := d.significand * 10 + digitValue c
    if next ≤ Integer.countMax then pushFraction ⟨next, d.exponent - 1⟩ rest else d

/-- Divides by ten to the power of `places`, in steps that have a rounded power of ten. -/
def divideByTens (x : Double) (places : Nat) : Double :=
  if places ≤ 308 then x.dividedBy (Double.ofNat (Decimal.tens places))
  else if x.magnitude = 0 then x
  else divideByTens (x.dividedBy (Double.ofNat (Decimal.tens 308))) (places - 308)
termination_by places

/-- The double of collected digits, unless it is too large. -/
def Digits.toDouble? (d : Digits) : Option Double :=
  let x := Double.ofNat d.significand
  if d.exponent < 0 then some (divideByTens x (-d.exponent).toNat)
  else if 308 < d.exponent then if x.magnitude = 0 then some x else none
  else
    let x := x.times (Double.ofNat (Decimal.tens d.exponent.toNat))
    if x.isInfinite then none else some x

/-- The largest exponent that is read as a number; a larger one gives zero or is refused. -/
def exponentMax : Nat := Integer.int32Limit - 1

/-- The digits moved by a written exponent: nothing if the number is too large, zero if too small. -/
def Digits.withExponent? (d : Digits) (negative : Bool) (digits : List Char) : Option Digits :=
  let e := Decimal.ofDigitChars digits
  if exponentMax < e then
    if d.significand ≠ 0 && !negative then none else some ⟨0, 0⟩
  else if negative then some ⟨d.significand, max (d.exponent - e) (-(Integer.int32Limit : Int))⟩
  else some ⟨d.significand, min (d.exponent + e) exponentMax⟩

def signed (negative : Bool) (x : Double) : Double := Double.ofMagnitude negative x.magnitude

namespace NumberText

def toDouble? (n : NumberText) : Option Double :=
  let digits := ((⟨0, 0⟩ : Digits).pushWhole n.whole).pushFraction n.fraction
  let moved :=
    match n.exponent with
    | none => some digits
    | some (negative, exponent) => digits.withExponent? negative exponent
  (moved.bind Digits.toDouble?).map (signed n.negative)

/-- The value of a number, unless it is out of range. -/
def value? (n : NumberText) : Option Number :=
  let size := Decimal.ofDigitChars n.whole
  if n.fraction.isEmpty && n.exponent.isNone && size ≤ Integer.countMax then
    if !n.negative then some (.natural size)
    else if size = 0 || Integer.int64Limit < size then some (.double (signed true (Double.ofNat size)))
    else some (.negative (-size))
  else n.toDouble?.map .double

end NumberText
end Docbase.Json
