/-
The operator words of the expression language. They are read in any ASCII case.
-/
import Docbase.Predicate

namespace Docbase.Expression

inductive Operator where
  | comparison (c : Comparison)
  | text
  deriving DecidableEq

namespace Operator

def all : List Operator := Comparison.all.map comparison ++ [text]

def word : Operator → String
  | .comparison c => c.word
  | .text => "text"

/-- The operator of a word, if it is one. -/
def ofWord? (word : List Char) : Option Operator :=
  all.find? fun op => op.word.toList = word.map Char.toLower

end Operator
end Docbase.Expression
