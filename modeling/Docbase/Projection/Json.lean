/-
Projections as JSON objects. Reading sets the keys of the object in order, over
a table of its own.
-/
import Docbase.Projection.Basic
import Docbase.Value.Json

namespace Docbase.Projection

def toJson (ts : NameTables) (p : Projection) : Json := .object (Value.fieldsToJson (p.items ts))

/-- A projection of a document over a new table, with names kept as they are. -/
def ofNewTable (ts : NameTables) (d : Document) : NameTables × Projection :=
  let (ts, t) := ts.create []
  ofDocument ts t d .verbatim

/-- How deep the containers of a JSON text may nest. -/
def nestingLimit : Nat := 127

/-- Reads a projection from a JSON text. -/
def read (marked : Value.MarkedReader) (ts : NameTables) (text : String) : Result (NameTables × Projection) :=
  match (Json.Tree.read? text).bind (Document.ofTree? marked nestingLimit) with
  | some d => .ok (ofNewTable ts d)
  | none => .error .serialization

end Docbase.Projection
