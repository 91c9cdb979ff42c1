/-
Predicates as filter documents for a query engine: `$and` and `$or` over two
operands, `{field: {$op: value}}` for comparisons, and a `$text` search.
-/
import Docbase.Error
import Docbase.Predicate

namespace Docbase

/-- The operator key of a comparison. -/
def Comparison.operatorKey : Comparison → String
  | .eq => "$eq"
  | .notEq => "$ne"
  | .gt => "$gt"
  | .gtEq => "$gte"
  | .lt => "$lt"
  | .ltEq => "$lte"
  | .isIn => "$in"
  | .notIn => "$nin"

def Connector.operatorKey : Connector → String
  | .and => "$and"
  | .or => "$or"

namespace Predicate

/-- Whether a value may stand as the operand of a comparison: membership asks for an array. -/
def admits : Comparison → Value → Bool
  | .isIn, .array _ => true
  | .notIn, .array _ => true
  | .isIn, _ => false
  | .notIn, _ => false
  | _, _ => true

/-- The filter document of a predicate; of two faults the left one is reported. -/
def toFilterDocument : Predicate → Result Document
  | .compare field op value =>
    if admits op value then
      .ok [(storedField field, .document [(op.operatorKey, value)])]
    else .error (.store (.operandNotArray op.operatorKey))
  | .text search => .ok [("$text", .document [("$search", .string search)])]
  | .combine connector left right =>
    match left.toFilterDocument with
    | .error e => .error e
    | .ok l =>
      match right.toFilterDocument with
      | .error e => .error e
      | .ok r => .ok [(connector.operatorKey, .array [.document l, .document r])]

/-- The filter document of a predicate that may be absent; none means the empty document. -/
def filterDocument (p : Option Predicate) : Result Document :=
  match p with
  | none => .ok []
  | some p => p.toFilterDocument

end Predicate
end Docbase
