/-
Equality of stored values: same type and same content. Doubles are equal as
numbers, arrays item by item, and documents without regard to the order of
their keys.
-/
import Docbase.Value.Basic

namespace Docbase

namespace Value

mutual

def equal : Value → Value → Bool
  | .null, .null => true
  | .bool a, .bool b => a = b
  | .int32 a, .int32 b => a = b
  | .int64 a, .int64 b => a = b
  | .double a, .double b => a.numEq b
  | .string a, .string b => a = b
  | .array as, .array bs => equalItems as bs
  | .document as, .document bs => as.length = bs.length && equalFields as bs
  | .date a, .date b => a = b
  | .objectId a, .objectId b => a = b
  | .timestamp s i, .timestamp t j => s = t && i = j
  | .binary a, .binary b => a = b
  | .symbol a, .symbol b => a = b
  | .code a, .code b => a = b
  | .undefined, .undefined => true
  | .minKey, .minKey => true
  | .maxKey, .maxKey => true
  | _, _ => false

def equalItems : List Value → List Value → Bool
  | [], [] => true
  | a :: as, b :: bs => equal a b && equalItems as bs
  | _, _ => false

/-- Every field of the first list has an equal one of its key in the second. -/
def equalFields : List (String × Value) → List (String × Value) → Bool
  | [], _ => true
  | (k, a) :: as, bs =>
    (match Fields.get? bs k with
      | some b => equal a b
      | none => false) && equalFields as bs

end

instance : BEq Value := ⟨equal⟩

end Value

/-- Equality of documents, without regard to the order of their keys. -/
def Document.equal (a b : Document) : Bool := Value.equal (.document a) (.document b)

end Docbase
