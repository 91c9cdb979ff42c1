/-
Filters: at most one predicate and at most one sort order. A predicate pushed on
an empty filter becomes its tree, whatever the connector; pushed on any other it
becomes the right child of a new root, so that trees lean to the left.
-/
import Docbase.Predicate

namespace Docbase

inductive SortDirection where
  | asc
  | desc
  deriving DecidableEq

structure SortOrder where
  field : String
  direction : SortDirection
  deriving DecidableEq

structure Filter where
  predicate : Option Predicate
  sort : Option SortOrder

namespace Filter

def empty : Filter := ⟨none, none⟩

def ofPredicate (p : Predicate) : Filter := ⟨some p, none⟩

def push (f : Filter) (connector : Connector) (p : Predicate) : Filter :=
  match f.predicate with
  | none => { f with predicate := some p }
  | some tree => { f with predicate := some (.combine connector tree p) }

/-- Replaces the sort order. -/
def sortBy (f : Filter) (s : SortOrder) : Filter := { f with sort := some s }

/-- Whether there is no predicate; a sort order does not count. -/
def isEmpty (f : Filter) : Bool := f.predicate.isNone

end Filter
end Docbase
