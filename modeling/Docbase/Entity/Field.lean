/-
Reading the fields of stored documents. A field of the wrong type is refused; so
is a missing one, unless it is optional.
-/
import Docbase.Error
import Docbase.Numeric.Integer
import Docbase.Text.Utf8
import Docbase.Value.Basic

namespace Docbase.Entity

/-- A string, whether stored as such or as the bytes of its encoding. -/
def asString : Value → Result String
  | .string s => .ok s
  | .binary bytes =>
    match Text.ofUtf8? bytes with
    | some s => .ok s
    | none => .error .serialization
  | _ => .error .serialization

def asBool : Value → Result Bool
  | .bool b => .ok b
  | _ => .error .serialization

/-- An integer of either size; a double is none. -/
def asInt : Value → Result Int
  | .int32 i => .ok i.toInt
  | .int64 i => .ok i.toInt
  | _ => .error .serialization

def asInt32 (v : Value) : Result Int32 :=
  match asInt v with
  | .error e => .error e
  | .ok i => if Integer.inInt32 i then .ok (Int32.ofInt i) else .error .serialization

def asInt64 (v : Value) : Result Int64 :=
  match asInt v with
  | .error e => .error e
  | .ok i => .ok (Int64.ofInt i)

def asCount (v : Value) : Result UInt64 :=
  match asInt v with
  | .error e => .error e
  | .ok i => if 0 ≤ i then .ok (UInt64.ofNat i.toNat) else .error .serialization

def asStrings : Value → Result (List String)
  | .array items => items.mapM asString
  | _ => .error .serialization

/-- A field that has to be there. -/
def required {α : Type} (d : Document) (key : String) (read : Value → Result α) : Result α :=
  match d.get? key with
  | some v => read v
  | none => .error .serialization

/-- A field that may be missing or null. -/
def optional {α : Type} (d : Document) (key : String) (read : Value → Result α) :
    Result (Option α) :=
  match d.get? key with
  | none => .ok none
  | some .null => .ok none
  | some v => (read v).map some

/-- A field with a default for when it is missing. -/
def withDefault {α : Type} (d : Document) (key : String) (read : Value → Result α) (missing : α) :
    Result α :=
  match d.get? key with
  | none => .ok missing
  | some v => read v

def ofString? (s : Option String) : Value :=
  match s with
  | some s => .string s
  | none => .null

/-- A count as a stored integer, if it fits one. -/
def ofCount (n : UInt64) : Result Value :=
  if n.toNat < Integer.int64Limit then .ok (.int64 (Int64.ofNat n.toNat)) else .error .serialization

end Docbase.Entity
