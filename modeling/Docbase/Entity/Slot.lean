/-
Slots: a value under an identifier that is stored as null while there is none.
-/
import Docbase.Entity.Basic
import Docbase.Entity.Field

namespace Docbase

structure Slot where
  id : Option String
  tracker : Tracker
  value : String
  deriving DecidableEq

namespace Slot

def blank : Slot := ⟨none, .new, ""⟩

def encode (s : Slot) : Document :=
  [(idField, Entity.ofString? s.id), ("value", .string s.value)]

def decode (d : Document) : Result Slot := do
  let id ← Entity.optional d idField Entity.asString
  let value ← Entity.required d "value" Entity.asString
  return ⟨id, .new, value⟩

instance : Entity Slot where
  typeName := "Slot"
  collectionName := "Slot"
  blank := blank
  id := Slot.id
  setId s id := { s with id := some id }
  tracker := Slot.tracker
  setTracker s t := { s with tracker := t }
  encode s := .ok s.encode
  decode := decode

end Slot
end Docbase
