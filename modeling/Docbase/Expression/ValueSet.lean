/-
The operands of membership tests: a list in parentheses that is either a set of
strings, `('a','b',#)`, or a set of numbers, `(1,2.5)`. After an item any number
of commas may stand, none included.

Each kind has a reader, which says whether a list is of that kind and what items
it sees, and a splitter, which makes the values by cutting at the commas.
-/
import Docbase.Expression.Term
import Docbase.Numeric.Decimal
import Docbase.Text.Blank

namespace Docbase.Expression

/-- An operand that is `#` between white space means null. -/
def nullable (cs : List Char) : Value :=
  if Text.trimChars cs = ['#'] then .null else .string (String.ofList cs)

/-- The non-empty pieces between commas. -/
def pieces (cs : List Char) : List (List Char) :=
  (Text.splitAll ',' cs).filter fun piece => !piece.isEmpty

inductive StringItem where
  | quoted (text : List Char)
  | hash
  deriving DecidableEq

/-- Where a reader of string sets stands: before the first item, after an item, or
inside quotes with some characters read, the last one first. -/
inductive StringPlace where
  | start
  | after
  | inside (read : List Char)

/-- The items of a string set. -/
def stringItemsFrom? : StringPlace → List Char → Option (List StringItem)
  | .start, [] => none
  | .start, c :: rest =>
    if c = '\'' then stringItemsFrom? (.inside []) rest
    else if c = '#' then (stringItemsFrom? .after rest).map (.hash :: ·)
    else none
  | .after, [] => some []
  | .after, c :: rest =>
    if c = ',' then stringItemsFrom? .after rest
    else if c = '\'' then stringItemsFrom? (.inside []) rest
    else if c = '#' then (stringItemsFrom? .after rest).map (.hash :: ·)
    else none
  | .inside _, [] => none
  | .inside read, c :: rest =>
    if c = '\'' then (stringItemsFrom? .after rest).map (.quoted read.reverse :: ·)
    else stringItemsFrom? (.inside (c :: read)) rest

def stringItems? (cs : List Char) : Option (List StringItem) := stringItemsFrom? .start cs

def isStringSet (cs : List Char) : Bool := (stringItems? cs).isSome

/-- The strings of a list with its quotes taken out. -/
def stringValues (cs : List Char) : List Value :=
  (pieces (cs.filter fun c => c ≠ '\'')).map nullable

/-- A number written as digits, or as digits, a point and digits. -/
structure Numeral where
  whole : List Char
  fraction : List Char
  deriving DecidableEq

namespace Numeral

def write (n : Numeral) : List Char :=
  if n.fraction.isEmpty then n.whole else n.whole ++ '.' :: n.fraction

def toDouble (n : Numeral) : Double := (Decimal.ofPlaces n.whole n.fraction).toDouble

/-- Reads a whole piece as one numeral. -/
def read? (piece : List Char) : Option Numeral :=
  match piece.span Char.isDigit with
  | (whole, []) => if whole.isEmpty then none else some ⟨whole, []⟩
  | (whole, '.' :: fraction) =>
    if whole.isEmpty || fraction.isEmpty || !fraction.all Char.isDigit then none
    else some ⟨whole, fraction⟩
  | _ => none

end Numeral

/-- Where a reader of number sets stands; digits read so far have the last one first. -/
inductive NumberPlace where
  | start
  | after
  | whole (read : List Char)
  | point (whole : List Char)
  | fraction (whole read : List Char)

/-- The numerals of a number set. -/
def numeralsFrom? : NumberPlace → List Char → Option (List Numeral)
  | .start, [] => none
  | .start, c :: rest => if c.isDigit then numeralsFrom? (.whole [c]) rest else none
  | .after, [] => some []
  | .after, c :: rest =>
    if c = ',' then numeralsFrom? .after rest
    else if c.isDigit then numeralsFrom? (.whole [c]) rest
    else none
  | .whole read, [] => some [⟨read.reverse, []⟩]
  | .whole read, c :: rest =>
    if c.isDigit then numeralsFrom? (.whole (c :: read)) rest
    else if c = '.' then numeralsFrom? (.point read.reverse) rest
    else if c = ',' then (numeralsFrom? .after rest).map (⟨read.reverse, []⟩ :: ·)
    else none
  | .point _, [] => none
  | .point whole, c :: rest => if c.isDigit then numeralsFrom? (.fraction whole [c]) rest else none
  | .fraction whole read, [] => some [⟨whole, read.reverse⟩]
  | .fraction whole read, c :: rest =>
    if c.isDigit then numeralsFrom? (.fraction whole (c :: read)) rest
    else if c = ',' then (numeralsFrom? .after rest).map (⟨whole, read.reverse⟩ :: ·)
    else none

def numerals? (cs : List Char) : Option (List Numeral) := numeralsFrom? .start cs

def isNumberSet (cs : List Char) : Bool := (numerals? cs).isSome

/-- The numbers of a list, unless a piece is no numeral. -/
def numberValues? (cs : List Char) : Option (List Value) :=
  (pieces cs).mapM fun piece => (Numeral.read? piece).map fun n => .double n.toDouble

/-- What stands between the parentheses of a list. -/
def unwrap? : List Char → Option (List Char)
  | '(' :: rest => if rest.getLast? = some ')' then some rest.dropLast else none
  | _ => none

/-- The values of a membership operand: strings if the list is a string set, else
numbers if it is a number set. -/
def valueSet? (value : List Char) : Option (List Value) :=
  match unwrap? value with
  | none => none
  | some inner =>
    if isStringSet inner then some (stringValues inner)
    else if isNumberSet inner then numberValues? inner
    else none

end Docbase.Expression
