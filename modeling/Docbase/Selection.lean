/-
Which fields of a document an answer carries. A selection includes fields or
excludes them, never both; `_id` is kept unless its own entry excludes it, and
counts on neither side.
-/
import Docbase.Error
import Docbase.Value.Basic

namespace Docbase

/-- Includes or excludes one field. -/
structure FieldSelection where
  field : String
  included : Bool
  deriving DecidableEq

abbrev Selection := List FieldSelection

namespace Selection

/-- Whether `_id` is kept: as its first entry says, and always if it has none. -/
def keepsId (s : Selection) : Bool :=
  match s.find? fun item => item.field = idField with
  | some item => item.included
  | none => true

/-- The entries for fields other than `_id`. -/
def others (s : Selection) : Selection := s.filter fun item => item.field ≠ idField

def isMixed (s : Selection) : Bool :=
  s.others.any FieldSelection.included && s.others.any fun item => !item.included

/-- Whether only listed fields are kept; `_id` on its own, when kept, is such a list. -/
def isInclusion (s : Selection) : Bool :=
  s.others.any FieldSelection.included || (s.others.isEmpty && s.keepsId)

def lists (s : Selection) (key : String) : Bool := s.others.any fun item => item.field = key

/-- Whether a selection that is not empty keeps the top-level field `key`. -/
def keeps (s : Selection) (key : String) : Bool :=
  if key = idField then s.keepsId
  else if s.isInclusion then s.lists key else !s.lists key

/-- The selected part of a document; the empty selection takes all of it. -/
def apply (s : Selection) (d : Document) : Result Document :=
  if s.isEmpty then .ok d
  else if s.isMixed then .error (.store .mixedSelection)
  else .ok (d.filter fun p => s.keeps p.1)

end Selection
end Docbase
