/-
Reading records and plain fields from JSON trees. A record is an object, in
which unknown keys are passed over and no field may come twice, or an array of
its fields in order, of which the last may be missing.
-/
import Docbase.Json.Number
import Docbase.Json.Syntax

namespace Docbase.Json.Tree

/-- The value of the only member under one of the names; none twice. -/
def member? (members : List (Option String × Tree)) (names : List String) : Option (Option Tree) :=
  match members.filter fun m => (m.1.map names.contains).getD false with
  | [] => some none
  | [(_, v)] => some (some v)
  | _ => none

/-- The fields of a record, each known by some names; a missing one is left open. -/
def fields? (names : List (List String)) : Tree → Option (List (Option Tree))
  | .object members =>
    if members.all fun m => m.1.isSome then names.mapM (member? members) else none
  | .array items =>
    if items.length ≤ names.length then
      some (items.map some ++ List.replicate (names.length - items.length) none)
    else none
  | _ => none

def string? : Tree → Option String
  | .string s => s
  | _ => none

def bool? : Tree → Option Bool
  | .bool b => some b
  | _ => none

/-- A 64-bit count. -/
def count? : Tree → Option Nat
  | .number n =>
    match n.value? with
    | some (.natural n) => some n
    | _ => none
  | _ => none

def int32? : Tree → Option Int32
  | .number n =>
    match n.value? with
    | some (.natural n) => if n < Integer.int32Limit then some (Int32.ofNat n) else none
    | some (.negative i) => if Integer.inInt32 i then some (Int32.ofInt i) else none
    | _ => none
  | _ => none

def array? : Tree → Option (List Tree)
  | .array items => some items
  | _ => none

end Docbase.Json.Tree
