/-
Index specifications. One text field makes the whole index a text index over all
its fields; such an index is never unique.
-/
import Docbase.Error
import Docbase.Numeric.Integer
import Docbase.Text.Blank
import Docbase.Value.Basic

namespace Docbase

inductive IndexKind where
  | ascending
  | descending
  | text
  deriving DecidableEq

structure IndexField where
  name : String
  kind : IndexKind
  deriving DecidableEq

/-- The settings that the fields of a text index share. -/
structure TextOptions where
  language : String
  version : Int32
  deriving DecidableEq

namespace TextOptions

def standard : TextOptions := ⟨"spanish", 3⟩

/-- The version number that a loosely typed property gives. -/
def version? : Value → Option Int32
  | .int32 i => some i
  | .int64 i => if Integer.inInt32 i.toInt then some (Int32.ofInt i.toInt) else none
  | .string s => Integer.int32? (Text.trim s)
  | _ => none

/-- Options with one property read into them. Keys match in any ASCII case; what
cannot be used changes nothing. -/
def withProperty (options : TextOptions) (key : String) (value : Value) : TextOptions :=
  let word := String.ofList (key.toList.map Char.toLower)
  if word = "defaultlanguage" then
    match value with
    | .string language => { options with language }
    | _ => options
  else if word = "textindexversion" then
    { options with version := (version? value).getD options.version }
  else options

def ofProperties (properties : Document) : TextOptions :=
  properties.foldl (fun options p => options.withProperty p.1 p.2) standard

end TextOptions

structure IndexSpec where
  name : String
  fields : List IndexField
  unique : Bool
  options : TextOptions
  deriving DecidableEq

namespace IndexSpec

def isText (spec : IndexSpec) : Bool := spec.fields.any fun f => f.kind = .text

/-- Whether the index refuses a second document with the same key. -/
def isUnique (spec : IndexSpec) : Bool := spec.unique && !spec.isText

def fieldNames (spec : IndexSpec) : List String := spec.fields.map IndexField.name

/-- The index with text options from loosely typed properties. -/
def withProperties (spec : IndexSpec) (properties : Document) : IndexSpec :=
  { spec with options := TextOptions.ofProperties properties }

/-- Names without surrounding white space; neither the index nor a field may be nameless. -/
def validate (spec : IndexSpec) : Result IndexSpec :=
  let name := Text.trim spec.name
  let fields := spec.fields.map fun f => { f with name := Text.trim f.name }
  if name.isEmpty then .error (.invalidArgument "name")
  else if fields.isEmpty || fields.any fun f => f.name.isEmpty then
    .error (.invalidArgument "fields")
  else .ok { spec with name, fields }

/-- The direction of a field in the key of an index that is not a text index. -/
def direction : IndexKind → Value
  | .descending => .int32 (-1)
  | .ascending | .text => .int32 1

def keys (spec : IndexSpec) : Document :=
  Fields.ofPairs (spec.fields.map fun f =>
    (f.name, if spec.isText then .string "text" else direction f.kind))

/-- The description under which a store lists the index. -/
def describe (spec : IndexSpec) : Document :=
  [("v", .int32 2), ("key", .document spec.keys), ("name", .string spec.name)] ++
    if spec.isText then
      [("default_language", .string spec.options.language),
        ("textIndexVersion", .int32 spec.options.version)]
    else if spec.unique then [("unique", .bool true)]
    else []

end IndexSpec

/-- The description of the index on `_id` that every collection has. -/
def idIndexDescription : Document :=
  [("v", .int32 2), ("key", .document [(idField, .int32 1)]), ("name", .string "_id_")]

end Docbase
