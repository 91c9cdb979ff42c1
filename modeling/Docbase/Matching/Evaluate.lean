/-
Whether a document satisfies a predicate. An array field satisfies a comparison
if one of its items does, and an equality also as a whole; null equals a missing
field. Connectors look at their right side only where the left leaves the answer
open, so a fault on the right may stay unseen.
-/
import Docbase.Error
import Docbase.Matching.Lookup
import Docbase.Predicate
import Docbase.Text.Words

namespace Docbase

namespace Matching

/-- Equality of a field, which may be missing, with an operand. -/
def equals : Option Operand → Operand → Bool
  | none, .null => true
  | none, _ => false
  | some actual, expected =>
    actual.equal expected ||
      match actual with
      | .array items => items.any fun item => item.equal expected
      | _ => false

/-- Whether a field, or an item of it, stands in an accepted order to an operand. -/
def ordered (accept : Ordering → Bool) : Option Operand → Operand → Bool
  | none, _ => false
  | some (.array items), expected =>
    items.any fun item => ((item.ordering? expected).map accept).getD false
  | some actual, expected => ((actual.ordering? expected).map accept).getD false

/-- Equality with one of a list of values. -/
def oneOf (actual : Option Operand) (values : List Value) : Bool :=
  values.any fun v => equals actual (Operand.ofValue v)

def compare (actual : Option Operand) (op : Comparison) (value : Value) : Result Bool :=
  match op with
  | .eq => .ok (equals actual (Operand.ofValue value))
  | .notEq => .ok !equals actual (Operand.ofValue value)
  | .gt => .ok (ordered Ordering.isGT actual (Operand.ofValue value))
  | .gtEq => .ok (ordered Ordering.isGE actual (Operand.ofValue value))
  | .lt => .ok (ordered Ordering.isLT actual (Operand.ofValue value))
  | .ltEq => .ok (ordered Ordering.isLE actual (Operand.ofValue value))
  | .isIn =>
    match value with
    | .array values => .ok (oneOf actual values)
    | _ => .error (.store .membershipOverScalar)
  | .notIn =>
    match value with
    | .array values => .ok !oneOf actual values
    | _ => .error (.store .membershipOverScalar)

/-- The texts of a field: a string, or the strings in an array. -/
def textsOf : Option Value → List String
  | some (.string s) => [s]
  | some (.array items) =>
    items.filterMap fun
      | .string s => some s
      | _ => none
  | _ => []

/-- Whether one of the fields has a word in common with the search text. -/
def searches (textFields : List String) (d : Document) (search : String) : Bool :=
  let wanted := Text.words search
  (textFields.flatMap fun field => (textsOf (d.lookup? field)).flatMap Text.words).any fun word =>
    wanted.contains word

end Matching

namespace Predicate

open Matching

/-- Whether a document satisfies the predicate, given the fields of the text index. -/
def eval (textFields : List String) (d : Document) : Predicate → Result Bool
  | .compare field op value => Matching.compare (d.operand? field) op value
  | .text search =>
    if textFields.isEmpty then .error (.store .textIndexMissing)
    else .ok (searches textFields d search)
  | .combine .and left right =>
    match left.eval textFields d with
    | .error e => .error e
    | .ok false => .ok false
    | .ok true => right.eval textFields d
  | .combine .or left right =>
    match left.eval textFields d with
    | .error e => .error e
    | .ok true => .ok true
    | .ok false => right.eval textFields d

end Predicate
end Docbase
