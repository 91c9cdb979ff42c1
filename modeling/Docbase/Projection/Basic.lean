/-
Projections: sparse maps from names to values. The names live in a shared table,
a projection holds a slot for each name that it has met. Reading uses a name as
it is given; writing resolves it first. Removing a field empties its slot and
leaves the table alone.
-/
import Docbase.Error
import Docbase.Naming
import Docbase.Projection.NameTables
import Docbase.Value.Equal

namespace Docbase

structure Projection where
  table : TableId
  /-- The values by position in the table; an empty slot holds none. -/
  slots : List (Option Value)
  strategy : NamingStrategy

namespace Projection

/-- A projection over a table that holds nothing. -/
def onTable (t : TableId) (strategy : NamingStrategy) : Projection := ⟨t, [], strategy⟩

/-- Pairs values with the names of a table by position. -/
def ofParts (ts : NameTables) (t : TableId) (values : List Value) (strategy : NamingStrategy) :
    Result Projection :=
  if (ts.names t).length < values.length then .error (.invalidArgument "values")
  else .ok ⟨t, values.map some, strategy⟩

def slot? (p : Projection) (i : Nat) : Option Value := (p.slots[i]?).bind id

def get? (ts : NameTables) (p : Projection) (name : String) : Option Value :=
  (ts.indexOf? p.table name).bind p.slot?

def contains (ts : NameTables) (p : Projection) (name : String) : Bool := (p.get? ts name).isSome

/-- The slots with a value put at a position; a list too short for it grows to the
length of the table. -/
def fillSlot (tableLength : Nat) (slots : List (Option Value)) (i : Nat) (v : Value) :
    List (Option Value) :=
  let grown :=
    if slots.length ≤ i then
      slots ++ List.replicate (max tableLength (i + 1) - slots.length) none
    else slots
  grown.set i (some v)

/-- Puts a value under a name that is resolved already. -/
def put (ts : NameTables) (p : Projection) (key : String) (v : Value) : NameTables × Projection :=
  let (ts, i) := ts.place p.table key
  (ts, { p with slots := fillSlot (ts.names p.table).length p.slots i v })

/-- Sets a field; also tells its resolved name. -/
def set (ts : NameTables) (p : Projection) (name : String) (v : Value) :
    NameTables × Projection × String :=
  let key := p.strategy.fieldName name
  let (ts, p) := p.put ts key v
  (ts, p, key)

/-- Sets a field that has no value yet. -/
def insert (ts : NameTables) (p : Projection) (name : String) (v : Value) :
    Result (NameTables × Projection) :=
  let key := p.strategy.fieldName name
  if p.contains ts key then .error (.invalidArgument key) else .ok (p.put ts key v)

/-- Empties a field; also tells whether it held a value. -/
def remove (ts : NameTables) (p : Projection) (name : String) : Projection × Bool :=
  match ts.indexOf? p.table name with
  | none => (p, false)
  | some i =>
    if (p.slot? i).isSome then ({ p with slots := p.slots.set i none }, true) else (p, false)

def clear (p : Projection) : Projection := { p with slots := p.slots.map fun _ => none }

def setFields (ts : NameTables) (p : Projection) (fields : Document) : NameTables × Projection :=
  fields.foldl (fun (ts, p) (name, v) => let (ts, p, _) := p.set ts name v; (ts, p)) (ts, p)

/-- Sets every field of a document in order. -/
def ofDocument (ts : NameTables) (t : TableId) (d : Document) (strategy : NamingStrategy) :
    NameTables × Projection :=
  setFields ts (onTable t strategy) d

/-- Projections of documents over one table. -/
def ofDocuments (ts : NameTables) (t : TableId) (strategy : NamingStrategy) :
    List Document → NameTables × List Projection
  | [] => (ts, [])
  | d :: rest =>
    let (ts, p) := ofDocument ts t d strategy
    let (ts, ps) := ofDocuments ts t strategy rest
    (ts, p :: ps)

/-- The names and values that are present, in the order of the table. -/
def items (ts : NameTables) (p : Projection) : List (String × Value) :=
  ((ts.names p.table).zip p.slots).filterMap fun (name, slot) => slot.map fun v => (name, v)

def keys (ts : NameTables) (p : Projection) : List String := (p.items ts).map Prod.fst

def values (ts : NameTables) (p : Projection) : List Value := (p.items ts).map Prod.snd

/-- The number of slots that hold a value. -/
def length (p : Projection) : Nat := p.slots.countP Option.isSome

def isEmpty (p : Projection) : Bool := p.length = 0

/-- The number of names in the table. -/
def fieldCount (ts : NameTables) (p : Projection) : Nat := (ts.names p.table).length

def toDocument (ts : NameTables) (p : Projection) : Document := Fields.ofPairs (p.items ts)

/-- Equality of contents, whatever the tables are. -/
def equal (ts : NameTables) (p q : Projection) : Bool :=
  Document.equal (p.toDocument ts) (q.toDocument ts)

def sharesTable (p q : Projection) : Bool := p.table = q.table

end Projection
end Docbase
