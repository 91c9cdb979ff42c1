/-
Oversized entities: a count whose default is too large for any stored integer,
so that the default entity has no stored form.
-/
import Docbase.Entity.Basic
import Docbase.Entity.Field

namespace Docbase

structure Oversized where
  id : Option String
  tracker : Tracker
  big : UInt64
  deriving DecidableEq

namespace Oversized

def blank : Oversized := ⟨none, .new, 0xFFFFFFFFFFFFFFFF⟩

def encode (o : Oversized) : Result Document :=
  (Entity.ofCount o.big).map fun big => [(idField, Entity.ofString? o.id), ("big", big)]

def decode (d : Document) : Result Oversized := do
  let id ← Entity.optional d idField Entity.asString
  let big ← Entity.required d "big" Entity.asCount
  return ⟨id, .new, big⟩

instance : Entity Oversized where
  typeName := "Oversized"
  collectionName := "Oversized"
  blank := blank
  id := Oversized.id
  setId o id := { o with id := some id }
  tracker := Oversized.tracker
  setTracker o t := { o with tracker := t }
  encode := encode
  decode := decode

end Oversized
end Docbase
