/-
What comparisons see of a value. Integers and doubles become one kind of number,
the nearest double; types without a useful order become null.

Two operands are ordered only if they are of one scalar kind. For sorting, the
kinds are ranked, and operands that are not ordered go by rank alone.
-/
import Docbase.Value.Basic

namespace Docbase

inductive Operand where
  | null
  | bool (b : Bool)
  | number (x : Double)
  | string (s : String)
  | date (ms : Int64)
  | objectId (id : BitVec 96)
  | array (items : List Operand)
  | map (fields : List (String × Operand))
  deriving Inhabited

namespace Operand

mutual

def ofValue : Value → Operand
  | .bool b => .bool b
  | .int32 i => .number (Double.ofInt i.toInt)
  | .int64 i => .number (Double.ofInt i.toInt)
  | .double x => .number x
  | .string s => .string s
  | .date ms => .date ms
  | .objectId id => .objectId id
  | .array items => .array (ofItems items)
  | .document fields => .map (ofFields fields)
  | .null | .timestamp _ _ | .binary _ | .symbol _ | .code _ | .undefined | .minKey | .maxKey => .null

def ofItems : List Value → List Operand
  | [] => []
  | v :: rest => ofValue v :: ofItems rest

def ofFields : List (String × Value) → List (String × Operand)
  | [] => []
  | (k, v) :: rest => (k, ofValue v) :: ofFields rest

end

mutual

/-- Equality; maps are equal without regard to the order of their keys. -/
def equal : Operand → Operand → Bool
  | .null, .null => true
  | .bool a, .bool b => a = b
  | .number a, .number b => a.numEq b
  | .string a, .string b => a = b
  | .date a, .date b => a = b
  | .objectId a, .objectId b => a = b
  | .array as, .array bs => equalItems as bs
  | .map as, .map bs => as.length = bs.length && equalFields as bs
  | _, _ => false

def equalItems : List Operand → List Operand → Bool
  | [], [] => true
  | a :: as, b :: bs => equal a b && equalItems as bs
  | _, _ => false

def equalFields : List (String × Operand) → List (String × Operand) → Bool
  | [], _ => true
  | (k, a) :: as, bs =>
    (match Fields.get? bs k with
      | some b => equal a b
      | none => false) && equalFields as bs

end

/-- Order within one scalar kind. -/
def ordering? : Operand → Operand → Option Ordering
  | .null, .null => some .eq
  | .bool a, .bool b => some (compare a.toNat b.toNat)
  | .number a, .number b => a.ordering? b
  | .string a, .string b => some (compare a b)
  | .date a, .date b => some (compare a.toInt b.toInt)
  | .objectId a, .objectId b => some (compare a.toNat b.toNat)
  | _, _ => none

/-- The place of a kind among all kinds when values are sorted. -/
def rank : Operand → Nat
  | .null => 0
  | .number _ => 1
  | .string _ => 2
  | .map _ => 3
  | .array _ => 4
  | .objectId _ => 5
  | .bool _ => 6
  | .date _ => 7

def sortOrdering (a b : Operand) : Ordering := (a.ordering? b).getD (compare a.rank b.rank)

end Operand
end Docbase
