/-
Sets of characters as ordered runs of code points. A run may take every
character between its ends or every second one, as the alternation of capital
and small letters in many alphabets asks for.
-/

namespace Docbase.Text

/-- The code points `first`, `first + step`, … up to `last`. -/
structure CharRange where
  first : Nat
  last : Nat
  step : Nat
  deriving DecidableEq

namespace CharRange

def contains (r : CharRange) (c : Char) : Bool :=
  r.first ≤ c.toNat && c.toNat ≤ r.last && (c.toNat - r.first) % r.step = 0

/-- Membership in a set of runs in ascending order; the search stops at the first
run that starts after the character. -/
def anyContains : List CharRange → Char → Bool
  | [], _ => false
  | r :: rest, c => if c.toNat < r.first then false else r.contains c || anyContains rest c

end CharRange
end Docbase.Text
