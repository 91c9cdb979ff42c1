/-
Terms of the expression language, read from characters:

  query := term (('&' | '|') term)*
  term  := field '_' operator '=' value
  value := (bare | '(' list ')')*

No term holds a separator, so a query is cut at the separators first and each
part is read as one term. A key is cut into field and operator at its last
underscore.
-/
import Docbase.Expression.Operator
import Docbase.Text.Split

namespace Docbase.Expression

/-- The characters of keys. -/
def isKeyChar (c : Char) : Bool := c.isAlphanum || c = '_'

/-- The characters of values outside lists. -/
def isBareChar (c : Char) : Bool :=
  c.isAlphanum || c = ' ' || c = '_' || c = '.' || c = '#' || c = '-'

/-- The characters between the parentheses of a list. -/
def isListChar (c : Char) : Bool :=
  c.isAlphanum || c = ' ' || c = '_' || c = '\'' || c = '"' || c = ',' || c = '.' || c = '#' ||
    c = '-'

/-- Where a reader of values stands: outside lists, just after an opening
parenthesis, or after a character of a list. -/
inductive ValuePlace where
  | bare
  | opened
  | listed

/-- Whether the characters are the rest of a value; lists are closed and not empty. -/
def isValueFrom : ValuePlace → List Char → Bool
  | .bare, [] => true
  | .bare, c :: rest =>
    if c = '(' then isValueFrom .opened rest else isBareChar c && isValueFrom .bare rest
  | .opened, [] => false
  | .opened, c :: rest => isListChar c && isValueFrom .listed rest
  | .listed, [] => false
  | .listed, c :: rest =>
    if c = ')' then isValueFrom .bare rest else isListChar c && isValueFrom .listed rest

def isValue (cs : List Char) : Bool := isValueFrom .bare cs

structure Term where
  field : List Char
  /-- The operator word as it was written. -/
  word : List Char
  operator : Operator
  value : List Char
  /-- The connector that follows the term. -/
  separator : Option Connector
  deriving DecidableEq

namespace Term

/-- The term without its separator, as text. -/
def write (t : Term) : List Char := t.field ++ '_' :: t.word ++ '=' :: t.value

/-- The field, the operator word and the operator of a key. -/
def splitKey? (key : List Char) : Option (List Char × List Char × Operator) :=
  match Text.splitLast? '_' key with
  | some (field, word) =>
    if field.isEmpty then none else (Operator.ofWord? word).map fun operator => (field, word, operator)
  | none => none

/-- Reads one part of a query, which is followed by `separator`. -/
def read? (part : List Char) (separator : Option Connector) : Option Term :=
  match part.span isKeyChar with
  | (key, '=' :: value) =>
    if isValue value then
      (splitKey? key).map fun (field, word, operator) => ⟨field, word, operator, value, separator⟩
    else none
  | _ => none

end Term

/-- The parts of a query, each with the connector that follows it. -/
def parts : List Char → List (List Char × Option Connector)
  | [] => [([], none)]
  | c :: rest =>
    match Connector.ofSymbol? c with
    | some connector => ([], some connector) :: parts rest
    | none =>
      match parts rest with
      | (part, separator) :: more => (c :: part, separator) :: more
      | [] => [([c], none)]

/-- The terms of a query, or nothing if any part of it is no term. -/
def scan? (query : List Char) : Option (List Term) :=
  (parts query).mapM fun p => Term.read? p.1 p.2

end Docbase.Expression
