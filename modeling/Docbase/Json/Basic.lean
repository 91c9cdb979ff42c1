/-
JSON as it is written: what serialised settings, projections and pages hold.
-/
import Docbase.Numeric.Double

namespace Docbase

inductive Json where
  | null
  | bool (b : Bool)
  | int (i : Int)
  | double (x : Double)
  | string (s : String)
  | array (items : List Json)
  /-- Members in the order in which they are written; keys may repeat. -/
  | object (members : List (String × Json))
  deriving Inhabited

end Docbase
