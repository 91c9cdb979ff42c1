/-
Connection settings: where the documents are and which database holds them.
-/
import Docbase.Error
import Docbase.Json.Basic
import Docbase.Json.Record
import Docbase.Text.Blank

namespace Docbase

structure Settings where
  connection : String
  database : String
  deriving DecidableEq

namespace Settings

/-- The settings without surrounding white space; neither may be blank. -/
def validate (s : Settings) : Result Settings :=
  let connection := Text.trim s.connection
  let database := Text.trim s.database
  if connection.isEmpty then .error (.settings .emptyConnection)
  else if database.isEmpty then .error (.settings .emptyDatabase)
  else .ok ⟨connection, database⟩

def toJson (s : Settings) : Json :=
  .object [("connectionString", .string s.connection), ("database", .string s.database)]

def ofTree? (t : Json.Tree) : Option Settings :=
  match t.fields? [["connectionString", "ConnectionString"], ["database", "Database"]] with
  | some [some connection, some database] =>
    match connection.string?, database.string? with
    | some connection, some database => some ⟨connection, database⟩
    | _, _ => none
  | _ => none

/-- Reads settings from a JSON text. -/
def read (text : String) : Result Settings :=
  match (Json.Tree.read? text).bind ofTree? with
  | some s => .ok s
  | none => .error .serialization

end Settings
end Docbase
