/-
Stored values and documents. A document is an ordered list of fields, and
documents nest.
-/
import Docbase.Fields
import Docbase.Numeric.Double

namespace Docbase

/-- The values that documents hold. -/
inductive Value where
  | null
  | bool (b : Bool)
  | int32 (i : Int32)
  | int64 (i : Int64)
  | double (x : Double)
  | string (s : String)
  | array (items : List Value)
  | document (fields : List (String × Value))
  /-- Milliseconds since the epoch. -/
  | date (ms : Int64)
  | objectId (id : BitVec 96)
  | timestamp (time increment : UInt32)
  | binary (bytes : List UInt8)
  | symbol (s : String)
  | code (s : String)
  | undefined
  | minKey
  | maxKey
  deriving Inhabited

/-- A document is an ordered list of fields. -/
abbrev Document := Fields Value

/-- The field of every document that identifies it. -/
def idField : String := "_id"

/-- The name under which callers speak of the identifying field. -/
def logicalIdField : String := "Id"

/-- The stored name of a logical field: `Id` is kept under `_id`, every other name is used as is. -/
def storedField (field : String) : String :=
  if field = logicalIdField then idField else field

end Docbase
