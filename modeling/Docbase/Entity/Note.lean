/-
Notes: an identifier that is stored under a key other than `_id`, so that
repositories refuse to change them.
-/
import Docbase.Entity.Basic
import Docbase.Entity.Field

namespace Docbase

structure Note where
  id : Option String
  tracker : Tracker
  text : String
  deriving DecidableEq

namespace Note

def blank : Note := ⟨none, .new, ""⟩

def encode (n : Note) : Document := [("id", Entity.ofString? n.id), ("text", .string n.text)]

def decode (d : Document) : Result Note := do
  let id ← Entity.optional d "id" Entity.asString
  let text ← Entity.required d "text" Entity.asString
  return ⟨id, .new, text⟩

instance : Entity Note where
  typeName := "Note"
  collectionName := "Note"
  blank := blank
  id := Note.id
  setId n id := { n with id := some id }
  tracker := Note.tracker
  setTracker n t := { n with tracker := t }
  encode n := .ok n.encode
  decode := decode

end Note
end Docbase
