/-
Entities: records with an identifier and a tracker state, and the form in which
they are stored. A type keeps its identifier well if it stores it as a string
under `_id`; one marked sample decides.
-/
import Docbase.Error
import Docbase.Text.Blank
import Docbase.Value.Basic

namespace Docbase

/-- How an entity stands to its stored form. Only `new` and `unchanged` are assigned
by repositories. -/
inductive Tracker where
  /-- Never stored; carries no identifier. -/
  | new
  /-- In step with the store. -/
  | unchanged
  | modified
  | deleted
  deriving DecidableEq

namespace Tracker

def name : Tracker → String
  | .new => "New"
  | .unchanged => "Unchanged"
  | .modified => "Modified"
  | .deleted => "Deleted"

def ofName? (name : String) : Option Tracker :=
  [new, unchanged, modified, deleted].find? fun t => t.name = name

end Tracker

class Entity (α : Type) where
  typeName : String
  /-- The collection of the type unless a repository names another. -/
  collectionName : String
  /-- An entity with all fields at their defaults. -/
  blank : α
  id : α → Option String
  setId : α → String → α
  tracker : α → Tracker
  setTracker : α → Tracker → α
  /-- The stored form; the tracker is no part of it. -/
  encode : α → Result Document
  decode : Document → Result α

namespace Entity

variable {α : Type} [Entity α]

/-- Whether there is an identifier that is not blank. -/
def hasId (e : α) : Bool :=
  match id e with
  | some s => !(Text.trim s).isEmpty
  | none => false

/-- A new entity has no identifier and every other has one. -/
def ensureState (e : α) : Result Unit :=
  if hasId e == (tracker e == .new) then .error (.incoherentEntityState (typeName α)) else .ok ()

/-- An entity as it comes from the store. -/
def ofDocument (d : Document) : Result α := (decode d).map fun e => setTracker e .unchanged

/-- The identifier of the sample that shows how a type stores its identifiers. -/
def sampleId : String := "__repolayer_marker__"

/-- Whether a type stores its identifiers as strings under `_id`. -/
def keepsStringId (α : Type) [Entity α] : Bool :=
  match encode (setId (blank : α) sampleId) with
  | .ok d =>
    match d.get? idField with
    | some (.string s) => s = sampleId
    | _ => false
  | .error _ => false

end Entity
end Docbase
