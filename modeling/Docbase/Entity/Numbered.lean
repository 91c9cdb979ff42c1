/-
Numbered entities: what is stored under `_id` is the length of the identifier in
bytes, which is no string.
-/
import Docbase.Entity.Basic
import Docbase.Entity.Field

namespace Docbase

structure Numbered where
  id : Option String
  tracker : Tracker
  deriving DecidableEq

namespace Numbered

def blank : Numbered := ⟨none, .new⟩

def encode (n : Numbered) : Document :=
  [(idField, .int32 (Int32.ofNat ((n.id.map String.utf8ByteSize).getD 0)))]

def decode (d : Document) : Result Numbered := do
  let id ← Entity.optional d idField Entity.asString
  return ⟨id, .new⟩

instance : Entity Numbered where
  typeName := "Numbered"
  collectionName := "Numbered"
  blank := blank
  id := Numbered.id
  setId n id := { n with id := some id }
  tracker := Numbered.tracker
  setTracker n t := { n with tracker := t }
  encode n := .ok n.encode
  decode := decode

end Numbered
end Docbase
