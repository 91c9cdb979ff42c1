/-
Double-precision numbers as their 64 bits: one sign bit, eleven bits of
exponent, fifty-two bits of fraction. Everything is exact arithmetic on `Nat`
and `Int`, so order and rounding are open to proofs.

The bits below the sign, read as a number, grow with the size of the double.
`rank` puts the sign back in front of them: it orders all doubles that are
numbers, and gives both zeros the same place.
-/

namespace Docbase

/-- A double-precision number, held as its bits. -/
structure Double where
  bits : UInt64
  deriving DecidableEq, Inhabited

namespace Double

/-- The sign bit, as a number. -/
def signBit : Nat := 0x8000000000000000

/-- The lowest bit of the exponent, as a number. -/
def exponentBit : Nat := 0x0010000000000000

/-- The bits below the sign. -/
def magnitude (x : Double) : Nat := x.bits.toNat % signBit

def isNegative (x : Double) : Bool := signBit ≤ x.bits.toNat

/-- The magnitude of the infinities; every larger one is not a number. -/
def infinityMagnitude : Nat := 2047 * exponentBit

def isNaN (x : Double) : Bool := infinityMagnitude < x.magnitude

def isInfinite (x : Double) : Bool := x.magnitude = infinityMagnitude

def isFinite (x : Double) : Bool := x.magnitude < infinityMagnitude

/-- The double of a sign and a magnitude below the sign bit. -/
def ofMagnitude (negative : Bool) (magnitude : Nat) : Double :=
  ⟨UInt64.ofNat (magnitude + if negative then signBit else 0)⟩

/-- The place of a double among the numbers: both zeros stand at 0. -/
def rank (x : Double) : Int :=
  if x.isNegative then -(x.magnitude : Int) else x.magnitude

/-- Numeric order; nothing is ordered against what is not a number. -/
def ordering? (x y : Double) : Option Ordering :=
  if x.isNaN || y.isNaN then none else some (compare x.rank y.rank)

/-- Numeric equality: the zeros are equal, and what is not a number differs from itself. -/
def numEq (x y : Double) : Bool := x.ordering? y = some .eq

/-- The significand and the power of two of the magnitude: the size of a finite
double is `significand * 2 ^ exponent`. -/
def significand (x : Double) : Nat :=
  if x.magnitude < exponentBit then x.magnitude else x.magnitude % exponentBit + exponentBit

def exponent (x : Double) : Int :=
  if x.magnitude < exponentBit then -1074 else (x.magnitude / exponentBit : Nat) - 1075

/-- `num / den` rounded to a whole number, a half to the even neighbour. -/
def roundQuotient (num den : Nat) : Nat :=
  let quotient := num / den
  let twice := 2 * (num % den)
  if den < twice || (twice = den && quotient % 2 = 1) then quotient + 1 else quotient

/-- The power of two at or just below the quotient of two positive numbers. -/
def binaryExponent (num den : Nat) : Int :=
  let guess : Int := num.log2 - den.log2
  if den <<< guess.toNat ≤ num <<< (-guess).toNat then guess else guess - 1

/-- The double nearest to `num / den`, a tie to the even significand; what is too
large becomes an infinity. The rounded significand is added to the exponent bits,
so that a carry out of it moves to the next exponent. -/
def ofRatio (negative : Bool) (num den : Nat) : Double :=
  if num = 0 then ofMagnitude negative 0
  else
    let exponent := max (binaryExponent num den - 52) (-1074)
    let rounded := roundQuotient (num <<< (-exponent).toNat) (den <<< exponent.toNat)
    ofMagnitude negative (min ((exponent + 1074).toNat * exponentBit + rounded) infinityMagnitude)

/-- The double nearest to a whole number. -/
def ofInt (i : Int) : Double := ofRatio (i < 0) i.natAbs 1

def ofNat (n : Nat) : Double := ofRatio false n 1

/-- The size of a finite double as a quotient of whole numbers. -/
def numerator (x : Double) : Nat := x.significand <<< x.exponent.toNat

def denominator (x : Double) : Nat := 1 <<< (-x.exponent).toNat

/-- The rounded product of two finite doubles. -/
def times (x y : Double) : Double :=
  ofRatio (x.isNegative != y.isNegative) (x.numerator * y.numerator) (x.denominator * y.denominator)

/-- The rounded quotient of a finite double by a finite one other than zero. -/
def dividedBy (x y : Double) : Double :=
  ofRatio (x.isNegative != y.isNegative) (x.numerator * y.denominator) (x.denominator * y.numerator)

/-- The whole part of the size of a finite double. -/
def wholePart (x : Double) : Nat := x.numerator / x.denominator

end Double
end Docbase
