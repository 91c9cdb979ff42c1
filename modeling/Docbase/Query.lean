/-
Queries on a collection: an optional predicate, sort order and window, and a
selection of fields.
-/
import Docbase.Filter
import Docbase.Selection

namespace Docbase

structure Query where
  filter : Option Predicate
  sort : Option SortOrder
  offset : Option Nat
  limit : Option Nat
  selection : Selection

namespace Query

/-- The query that asks for all documents as they are. -/
def all : Query := ⟨none, none, none, none, []⟩

/-- The items of a list that a window shows. -/
def window {α : Type} (q : Query) (xs : List α) : List α :=
  let rest := xs.drop (q.offset.getD 0)
  match q.limit with
  | none => rest
  | some n => rest.take n

end Query
end Docbase
