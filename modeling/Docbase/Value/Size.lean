/-
The length in bytes of a document in its binary encoding: a length word, the
elements and a closing byte. An element is a type byte, its key with a closing
byte, and its payload; the items of an array have their positions as keys. Keys
end at a zero byte, so a document with a NUL in any key has no encoding and
counts as nothing.
-/
import Docbase.Value.Basic

namespace Docbase

namespace Value

mutual

def payloadLength : Value → Nat
  | .null | .undefined | .minKey | .maxKey => 0
  | .bool _ => 1
  | .int32 _ => 4
  | .int64 _ | .double _ | .date _ | .timestamp _ _ => 8
  | .objectId _ => 12
  | .string s | .symbol s | .code s => 4 + s.utf8ByteSize + 1
  | .binary bytes => 5 + bytes.length
  | .array items => 4 + itemsLength 0 items + 1
  | .document fields => 4 + fieldsLength fields + 1

def itemsLength : Nat → List Value → Nat
  | _, [] => 0
  | i, v :: rest =>
    1 + (Nat.toDigits 10 i).length + 1 + payloadLength v + itemsLength (i + 1) rest

def fieldsLength : List (String × Value) → Nat
  | [] => 0
  | (k, v) :: rest => 1 + k.utf8ByteSize + 1 + payloadLength v + fieldsLength rest

end

mutual

/-- Whether every key inside the value can be encoded. -/
def encodable : Value → Bool
  | .array items => itemsEncodable items
  | .document fields => fieldsEncodable fields
  | _ => true

def itemsEncodable : List Value → Bool
  | [] => true
  | v :: rest => encodable v && itemsEncodable rest

def fieldsEncodable : List (String × Value) → Bool
  | [] => true
  | (k, v) :: rest => !k.toList.contains '\x00' && encodable v && fieldsEncodable rest

end

end Value

/-- The encoded length of a document, or 0 if it has no encoding. -/
def Document.size (d : Document) : Nat :=
  if (Value.document d).encodable then (Value.document d).payloadLength else 0

end Docbase
