/-
People: an identifier that is left out of the stored form while there is none.
-/
import Docbase.Entity.Basic
import Docbase.Entity.Field

namespace Docbase

structure Person where
  id : Option String
  tracker : Tracker
  name : String
  age : Int32
  city : Option String
  bio : String
  deriving DecidableEq

namespace Person

def blank : Person := ⟨none, .new, "", 0, none, ""⟩

def encode (p : Person) : Document :=
  (match p.id with
    | some id => [(idField, .string id)]
    | none => []) ++
  [("Name", .string p.name), ("Age", .int32 p.age), ("City", Entity.ofString? p.city),
    ("Bio", .string p.bio)]

def decode (d : Document) : Result Person := do
  let id ← Entity.optional d idField Entity.asString
  let name ← Entity.required d "Name" Entity.asString
  let age ← Entity.required d "Age" Entity.asInt32
  let city ← Entity.optional d "City" Entity.asString
  let bio ← Entity.required d "Bio" Entity.asString
  return ⟨id, .new, name, age, city, bio⟩

instance : Entity Person where
  typeName := "Person"
  collectionName := "people"
  blank := blank
  id := Person.id
  setId p id := { p with id := some id }
  tracker := Person.tracker
  setTracker p t := { p with tracker := t }
  encode p := .ok p.encode
  decode := decode

end Person
end Docbase
