/-
From an expression to a filter. Terms are pushed from left to right, each with
the separator that stands before it; `&` and `|` bind alike. Any deviation from
the grammar rejects the whole text.
-/
import Docbase.Error
import Docbase.Expression.ValueSet
import Docbase.Filter

namespace Docbase

/-- A query and an order-by token, both without surrounding white space. -/
structure Expression where
  orderBy : String
  query : String
  deriving DecidableEq

namespace Expression

/-- A missing order-by token means no sort. -/
def ofTokens (orderBy : Option String) (query : String) : Expression :=
  ⟨Text.trim (orderBy.getD ""), Text.trim query⟩

namespace Term

/-- The leaf that a term stands for; only the operand of a membership test can fail. -/
def predicate? (t : Term) : Option Predicate :=
  let field := String.ofList t.field
  let verbatim := Value.string (String.ofList t.value)
  match t.operator with
  | .comparison .eq => some (.compare field .eq (nullable t.value))
  | .comparison .notEq => some (.compare field .notEq (nullable t.value))
  | .comparison .isIn => (valueSet? t.value).map (.oneOf field)
  | .comparison .notIn => (valueSet? t.value).map (.noneOf field)
  | .comparison op => some (.compare field op verbatim)
  | .text => some (.text (String.ofList t.value))

end Term

/-- Pushes terms in order; `connector` joins the first of them. -/
def pushTerms? : Filter → Connector → List Term → Option Filter
  | f, _, [] => some f
  | f, connector, t :: rest =>
    match t.predicate? with
    | none => none
    | some leaf => pushTerms? (f.push connector leaf) (t.separator.getD connector) rest

/-- The filter of a query without its sort; no text means no predicate. -/
def filterOf? (query : List Char) : Option Filter :=
  if query.isEmpty then some .empty
  else (scan? query).bind (pushTerms? .empty .and)

def direction? (word : List Char) : Option SortDirection :=
  if word.map Char.toLower = ['a', 's', 'c'] then some .asc
  else if word.map Char.toLower = ['d', 'e', 's', 'c'] then some .desc
  else none

/-- Reads `field_direction`; the field is any text that is not empty. -/
def sort? (token : List Char) : Option SortOrder :=
  match Text.splitLast? '_' token with
  | some (field, word) =>
    if field.isEmpty then none
    else (direction? word).map fun direction => ⟨String.ofList field, direction⟩
  | none => none

/-- The filter of an expression. A fault in the query is reported before one in the
order-by token. -/
def compile (e : Expression) : Result Filter :=
  match filterOf? e.query.toList with
  | none => .error (.invalidExpression e.query)
  | some filter =>
    if e.orderBy.isEmpty then .ok filter
    else
      match sort? e.orderBy.toList with
      | none => .error (.invalidExpression e.orderBy)
      | some sort => .ok (filter.sortBy sort)

end Expression
end Docbase
