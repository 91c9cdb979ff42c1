/-
Finding a field in a document. A dotted name leads through embedded documents,
and the logical name `Id` stands for `_id`.
-/
import Docbase.Matching.Operand
import Docbase.Text.Split

namespace Docbase

/-- The segments of a field name between its dots. -/
def fieldPath (field : String) : List String :=
  (Text.splitAll '.' (storedField field).toList).map String.ofList

namespace Document

/-- The value at the end of a path; arrays are not entered. -/
def getPath? : Document → List String → Option Value
  | _, [] => none
  | d, [key] => d.get? key
  | d, key :: rest =>
    match d.get? key with
    | some (.document inner) => getPath? inner rest
    | _ => none

def lookup? (d : Document) (field : String) : Option Value := getPath? d (fieldPath field)

/-- What comparisons see of a field, if the document has it. -/
def operand? (d : Document) (field : String) : Option Operand := (lookup? d field).map Operand.ofValue

end Document
end Docbase
