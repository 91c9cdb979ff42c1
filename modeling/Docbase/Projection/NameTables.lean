/-
Tables of field names that projections share. A table only grows: names are
added at its end, and a name stands for its first position.
-/
import Docbase.Value.Basic

namespace Docbase

/-- Which table of a collection of tables is meant. -/
abbrev TableId := Nat

/-- All tables there are, each a list of names. -/
structure NameTables where
  tables : List (List String)

namespace NameTables

def empty : NameTables := ⟨[]⟩

/-- A new table; names may repeat. -/
def create (ts : NameTables) (names : List String) : NameTables × TableId :=
  (⟨ts.tables ++ [names]⟩, ts.tables.length)

def names (ts : NameTables) (t : TableId) : List String := (ts.tables[t]?).getD []

def indexOf? (ts : NameTables) (t : TableId) (name : String) : Option Nat := (ts.names t).idxOf? name

/-- The position of a name, which is added if it is unknown. -/
def place (ts : NameTables) (t : TableId) (name : String) : NameTables × Nat :=
  match ts.indexOf? t name with
  | some i => (ts, i)
  | none => (⟨ts.tables.modify t (· ++ [name])⟩, (ts.names t).length)

end NameTables
end Docbase
