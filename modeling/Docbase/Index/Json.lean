/-
Index specifications read from JSON. Uniqueness and the text options may be left
out, and each of the options too.
-/
import Docbase.Index
import Docbase.Json.Record

namespace Docbase

def IndexKind.ofName? : String → Option IndexKind
  | "Ascending" => some .ascending
  | "Descending" => some .descending
  | "Text" => some .text
  | _ => none

/-- A kind is its name, or an object with its name over null. -/
def IndexKind.ofTree? : Json.Tree → Option IndexKind
  | .string name => name.bind ofName?
  | .object [(name, .null)] => name.bind ofName?
  | _ => none

def IndexField.ofTree? (t : Json.Tree) : Option IndexField :=
  match t.fields? [["name"], ["kind"]] with
  | some [some name, some kind] =>
    match name.string?, IndexKind.ofTree? kind with
    | some name, some kind => some ⟨name, kind⟩
    | _, _ => none
  | _ => none

/-- A field that may be missing, with what it then stands for. -/
def Json.Tree.orElse? {α : Type} (read? : Json.Tree → Option α) (missing : α) :
    Option Json.Tree → Option α
  | none => some missing
  | some t => read? t

def TextOptions.ofTree? (t : Json.Tree) : Option TextOptions :=
  match t.fields? [["defaultLanguage"], ["textIndexVersion"]] with
  | some [language, version] =>
    match Json.Tree.orElse? Json.Tree.string? standard.language language,
        Json.Tree.orElse? Json.Tree.int32? standard.version version with
    | some language, some version => some ⟨language, version⟩
    | _, _ => none
  | _ => none

namespace IndexSpec

def ofTree? (t : Json.Tree) : Option IndexSpec :=
  match t.fields? [["name"], ["fields"], ["unique"], ["text"]] with
  | some [some name, some fields, unique, options] =>
    match name.string?, fields.array?.bind (List.mapM IndexField.ofTree?),
        Json.Tree.orElse? Json.Tree.bool? false unique,
        Json.Tree.orElse? TextOptions.ofTree? .standard options with
    | some name, some fields, some unique, some options => some ⟨name, fields, unique, options⟩
    | _, _, _, _ => none
  | _ => none

/-- Reads an index specification from a JSON text. -/
def read (text : String) : Result IndexSpec :=
  match (Json.Tree.read? text).bind ofTree? with
  | some spec => .ok spec
  | none => .error .serialization

end IndexSpec
end Docbase
