/-
Pages as JSON, and pages read from JSON. Each projection that is read gets a
table of its own.
-/
import Docbase.Page
import Docbase.Projection.Json

namespace Docbase.Page

def toJson (p : Page) : Json :=
  .object [("count", .int p.count), ("pageSize", .int p.pageSize), ("page", .int p.page),
    ("result", .array (p.result.map (Projection.toJson p.tables)))]

/-- Projections of documents, each over a new table. -/
def ofSeparate (ts : NameTables) : List Document → NameTables × List Projection
  | [] => (ts, [])
  | d :: rest =>
    let (ts, p) := Projection.ofNewTable ts d
    let (ts, ps) := ofSeparate ts rest
    (ts, p :: ps)

/-- The documents of a page stand inside its object and its list. -/
def ofTree? (marked : Value.MarkedReader) (t : Json.Tree) : Option Page :=
  match t.fields? [["count"], ["pageSize"], ["page"], ["result"]] with
  | some [some count, some pageSize, some page, some result] =>
    match count.count?, pageSize.count?, page.count?,
        result.array?.bind (List.mapM (Document.ofTree? marked (Projection.nestingLimit - 2))) with
    | some count, some pageSize, some page, some documents =>
      let (tables, result) := ofSeparate .empty documents
      some ⟨count, pageSize, page, tables, result⟩
    | _, _, _, _ => none
  | _ => none

/-- Reads a page from a JSON text. -/
def read (marked : Value.MarkedReader) (text : String) : Result Page :=
  match (Json.Tree.read? text).bind (ofTree? marked) with
  | some p => .ok p
  | none => .error .serialization

end Docbase.Page
