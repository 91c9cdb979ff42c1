/-
The text that messages and predicates show for a value.
-/
import Docbase.Numeric.Decimal
import Docbase.Text.Bytes
import Docbase.Value.Basic

namespace Docbase.Value

def quoted (s : String) : String := "\"" ++ s ++ "\""

mutual

/-- The display text of a value. Strings stand between quotes with nothing escaped,
and doubles have no exponent. -/
def display : Value → String
  | .null => "null"
  | .bool b => if b then "true" else "false"
  | .int32 i => toString i.toInt
  | .int64 i => toString i.toInt
  | .double x => x.text
  | .string s => quoted s
  | .array items => "[" ++ displayItems items ++ "]"
  | .document [] => "\x7b\x7d"
  | .document (field :: rest) => "\x7b " ++ displayFields (field :: rest) ++ " \x7d"
  | .date ms => "DateTime(" ++ toString ms.toInt ++ ")"
  | .objectId id => "ObjectId(\"" ++ String.ofList (Text.hexDigits 24 id.toNat) ++ "\")"
  | .timestamp t i => "Timestamp(" ++ toString t.toNat ++ ", " ++ toString i.toNat ++ ")"
  | .binary bytes => "Binary(0x0, " ++ String.ofList (Text.base64 bytes) ++ ")"
  | .symbol s => "Symbol(" ++ quoted s ++ ")"
  | .code s => s
  | .undefined => "undefined"
  | .minKey => "MinKey"
  | .maxKey => "MaxKey"

def displayItems : List Value → String
  | [] => ""
  | [v] => display v
  | v :: rest => display v ++ ", " ++ displayItems rest

def displayFields : List (String × Value) → String
  | [] => ""
  | [(k, v)] => quoted k ++ ": " ++ display v
  | (k, v) :: rest => quoted k ++ ": " ++ display v ++ ", " ++ displayFields rest

end

end Docbase.Value
