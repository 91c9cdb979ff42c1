/-
Tickets: a number stored under `id` beside the identifier under `_id`.
-/
import Docbase.Entity.Basic
import Docbase.Entity.Field

namespace Docbase

structure Ticket where
  id : Option String
  tracker : Tracker
  number : Option Int64
  tags : List String
  isOpen : Bool
  deriving DecidableEq

namespace Ticket

def blank : Ticket := ⟨none, .new, none, [], false⟩

def encode (t : Ticket) : Document :=
  let number : Value :=
    match t.number with
    | some n => .int64 n
    | none => .null
  [("id", number), (idField, Entity.ofString? t.id), ("tags", .array (t.tags.map .string)),
    ("open", .bool t.isOpen)]

def decode (d : Document) : Result Ticket := do
  let number ← Entity.optional d "id" Entity.asInt64
  let id ← Entity.optional d idField Entity.asString
  let tags ← Entity.withDefault d "tags" Entity.asStrings []
  let isOpen ← Entity.required d "open" Entity.asBool
  return ⟨id, .new, number, tags, isOpen⟩

instance : Entity Ticket where
  typeName := "Ticket"
  collectionName := "Ticket"
  blank := blank
  id := Ticket.id
  setId t id := { t with id := some id }
  tracker := Ticket.tracker
  setTracker t s := { t with tracker := s }
  encode t := .ok t.encode
  decode := decode

end Ticket
end Docbase
