/-
Whole numbers written in decimal: an optional sign and at least one digit.
-/
import Docbase.Numeric.Decimal

namespace Docbase.Integer

/-- The first natural number that a 32-bit integer does not hold. -/
def int32Limit : Nat := 0x80000000

/-- The first natural number that a 64-bit integer does not hold. -/
def int64Limit : Nat := 0x8000000000000000

/-- The largest value of a 64-bit count. -/
def countMax : Nat := 0xFFFFFFFFFFFFFFFF

def inInt32 (i : Int) : Bool := -(int32Limit : Int) ≤ i && i < int32Limit

def inInt64 (i : Int) : Bool := -(int64Limit : Int) ≤ i && i < int64Limit

def ofDigits? (cs : List Char) : Option Nat :=
  if cs.isEmpty || !cs.all Char.isDigit then none else some (Decimal.ofDigitChars cs)

/-- Reads digits after an optional `+` or `-`, of any size. -/
def ofChars? : List Char → Option Int
  | '-' :: rest => (ofDigits? rest).map fun n => -(n : Int)
  | '+' :: rest => (ofDigits? rest).map fun n => (n : Int)
  | cs => (ofDigits? cs).map fun n => (n : Int)

def int64? (s : String) : Option Int64 :=
  match ofChars? s.toList with
  | some i => if inInt64 i then some (Int64.ofInt i) else none
  | none => none

def int32? (s : String) : Option Int32 :=
  match ofChars? s.toList with
  | some i => if inInt32 i then some (Int32.ofInt i) else none
  | none => none

end Docbase.Integer
