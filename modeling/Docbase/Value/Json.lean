/-
Stored values as JSON, and documents read from JSON. Types that JSON lacks are
written as objects with a marked key, one that starts with `$`. When reading,
natural numbers take the smallest integer type that holds them, negative ones
the large one, and numbers with a point or an exponent are doubles. What an
object with a marked key is read as is a parameter (`MarkedReader`).
-/
import Docbase.Json.Basic
import Docbase.Json.Record
import Docbase.Text.Bytes
import Docbase.Value.Basic

namespace Docbase.Value

mutual

def toJson : Value → Json
  | .null => .null
  | .bool b => .bool b
  | .int32 i => .int i.toInt
  | .int64 i => .int i.toInt
  | .double x => if x.isFinite then .double x else .null
  | .string s => .string s
  | .array items => .array (itemsToJson items)
  | .document fields => .object (fieldsToJson fields)
  | .date ms =>
    .object [("$date", .object [("$numberLong", .string (toString ms.toInt))])]
  | .objectId id => .object [("$oid", .string (String.ofList (Text.hexDigits 24 id.toNat)))]
  | .timestamp t i => .object [("$timestamp", .object [("t", .int t.toNat), ("i", .int i.toNat)])]
  | .binary bytes =>
    .object [("$binary", .object [("base64", .string (String.ofList (Text.base64 bytes))),
      ("subType", .string "00")])]
  | .symbol s => .object [("$symbol", .string s)]
  | .code s => .object [("$code", .string s)]
  | .undefined => .object [("$undefined", .bool true)]
  | .minKey => .object [("$minKey", .int 1)]
  | .maxKey => .object [("$maxKey", .int 1)]

def itemsToJson : List Value → List Json
  | [] => []
  | v :: rest => toJson v :: itemsToJson rest

def fieldsToJson : List (String × Value) → List (String × Json)
  | [] => []
  | (k, v) :: rest => (k, toJson v) :: fieldsToJson rest

end

/-- The stored value of a JSON number. -/
def ofNumber? : Json.Number → Option Value
  | .natural n =>
    if n < Integer.int32Limit then some (.int32 (Int32.ofNat n))
    else if n < Integer.int64Limit then some (.int64 (Int64.ofNat n))
    else none
  | .negative i => some (.int64 (Int64.ofInt i))
  | .double x => some (.double x)

/-- Whether a key starts like those of the objects that types which JSON lacks are written as. -/
def isMarkedKey (key : String) : Bool := key.toList.head? = some '$'

def hasMarkedKey (members : List (Option String × Json.Tree)) : Bool := members.any fun m => m.1.any isMarkedKey

/-- What the members of an object with a marked key are read as, where containers nest at most so deep. Which marks
there are and what may stand under them is for the format of such objects to say. -/
abbrev MarkedReader := Nat → List (Option String × Json.Tree) → Option Value

section

variable (marked : MarkedReader)

mutual

/-- The value of a tree in which containers nest at most `room` deep. -/
def ofTree? (room : Nat) : Json.Tree → Option Value
  | .null => some .null
  | .bool b => some (.bool b)
  | .number n => n.value?.bind ofNumber?
  | .string s => s.map .string
  | .array items =>
    if room = 0 then none else (ofTrees? (room - 1) items).map .array
  | .object members =>
    if room = 0 then none
    else if hasMarkedKey members then marked (room - 1) members
    else (ofMembers? (room - 1) members).map fun fields => .document (Fields.ofPairs fields)

def ofTrees? (room : Nat) : List Json.Tree → Option (List Value)
  | [] => some []
  | t :: rest =>
    match ofTree? room t, ofTrees? room rest with
    | some v, some vs => some (v :: vs)
    | _, _ => none

def ofMembers? (room : Nat) : List (Option String × Json.Tree) → Option (List (String × Value))
  | [] => some []
  | (key, t) :: rest =>
    match key, ofTree? room t, ofMembers? room rest with
    | some k, some v, some fields => some ((k, v) :: fields)
    | _, _, _ => none

end

end

end Docbase.Value

namespace Docbase.Document

/-- The document of an object in which containers nest at most `room` deep. No other value is one. -/
def ofTree? (marked : Value.MarkedReader) (room : Nat) (t : Json.Tree) : Option Document :=
  match Value.ofTree? marked room t with
  | some (.document fields) => some fields
  | _ => none

end Docbase.Document
