/-
Predicates on documents: trees whose leaves compare a field with a value, test
it for membership in a list, or search the text index, and whose inner nodes
join two predicates. Trees are kept as they were built.
-/
import Docbase.Value.Display

namespace Docbase

inductive Connector where
  | and
  | or
  deriving DecidableEq

namespace Connector

/-- The connector that a symbol of the expression language stands for. -/
def ofSymbol? : Char → Option Connector
  | '&' => some .and
  | '|' => some .or
  | _ => none

def display : Connector → String
  | .and => "AND"
  | .or => "OR"

end Connector

inductive Comparison where
  | eq
  | notEq
  | gt
  | gtEq
  | lt
  | ltEq
  | isIn
  | notIn
  deriving DecidableEq

namespace Comparison

def all : List Comparison := [.eq, .notEq, .gt, .gtEq, .lt, .ltEq, .isIn, .notIn]

/-- The word for a comparison, in expressions and in display texts. -/
def word : Comparison → String
  | .eq => "eq"
  | .notEq => "noteq"
  | .gt => "gt"
  | .gtEq => "gteq"
  | .lt => "lt"
  | .ltEq => "lteq"
  | .isIn => "in"
  | .notIn => "notin"

end Comparison

inductive Predicate where
  | compare (field : String) (op : Comparison) (value : Value)
  | text (search : String)
  | combine (connector : Connector) (left right : Predicate)
  deriving Inhabited

namespace Predicate

def eq (field : String) (value : Value) : Predicate := .compare field .eq value

/-- Holds where the field has one of the values. -/
def oneOf (field : String) (values : List Value) : Predicate := .compare field .isIn (.array values)

/-- Holds where the field has none of the values. -/
def noneOf (field : String) (values : List Value) : Predicate := .compare field .notIn (.array values)

def display : Predicate → String
  | .compare field op value => field ++ " " ++ op.word ++ " " ++ value.display
  | .text search => "text " ++ Value.quoted search
  | .combine connector left right =>
    "(" ++ left.display ++ ") " ++ connector.display ++ " (" ++ right.display ++ ")"

end Predicate
end Docbase
