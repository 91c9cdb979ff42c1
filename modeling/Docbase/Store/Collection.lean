/-
One collection: its documents in order of insertion and its indexes.

All operations on documents that satisfy a predicate start from `judge`, which
tests every document and fails if any test fails, so they agree on what matches
and on what is refused. A document collides with another if both have the same
`_id` or the same key in a unique index.
-/
import Docbase.Index
import Docbase.Matching.Evaluate
import Docbase.Query
import Docbase.Value.Equal
import Docbase.Value.Size

namespace Docbase

structure Collection where
  documents : List Document
  indexes : List IndexSpec

namespace Collection

def empty : Collection := ⟨[], []⟩

/-- The fields that text searches look at. -/
def textFields (c : Collection) : List String :=
  (c.indexes.filter IndexSpec.isText).flatMap IndexSpec.fieldNames

/-- Every document with the answer whether it satisfies a predicate; all do if there is none. -/
def judge (c : Collection) (p : Option Predicate) : Result (List (Document × Bool)) :=
  c.documents.mapM fun d =>
    match p with
    | none => .ok (d, true)
    | some p => (p.eval c.textFields d).map fun answer => (d, answer)

/-- The documents that satisfy a predicate, in store order. -/
def matching (c : Collection) (p : Option Predicate) : Result (List Document) :=
  (c.judge p).map fun judged => (judged.filter Prod.snd).map Prod.fst

/-- The documents before the first match, the match, and all documents after it. -/
def splitMatch? : List (Document × Bool) → Option (List Document × Document × List Document)
  | [] => none
  | (d, true) :: rest => some ([], d, rest.map Prod.fst)
  | (d, false) :: rest =>
    (splitMatch? rest).map fun (before, found, after) => (d :: before, found, after)

/-- Whether two documents that may each lack a field agree on it. -/
def sameKey : Option Operand → Option Operand → Bool
  | none, none => true
  | some a, some b => a.equal b
  | _, _ => false

/-- Whether two documents agree on all fields of an index. -/
def agreesOn (spec : IndexSpec) (a b : Document) : Bool :=
  spec.fieldNames.all fun field => sameKey (a.operand? field) (b.operand? field)

/-- Whether a document has the `_id` of another. -/
def sameId (d other : Document) : Bool :=
  match d.get? idField, other.get? idField with
  | some a, some b => a.equal b
  | _, _ => false

def collides (indexes : List IndexSpec) (d other : Document) : Bool :=
  sameId other d || indexes.any fun spec => spec.isUnique && agreesOn spec d other

/-- How messages name the `_id` of a document: a string as it is, any other value as displayed. -/
def idText (d : Document) : String :=
  match d.get? idField with
  | some (.string s) => s
  | some v => v.display
  | none => ""

/-- Refuses a document that collides with one of the others. -/
def checkUnique (name : String) (indexes : List IndexSpec) (d : Document) (others : List Document) :
    Result Unit :=
  if others.any fun other => collides indexes d other then .error (.alreadyExists (idText d) name)
  else .ok ()

/-- Adds a document at the end. -/
def insert (c : Collection) (name : String) (d : Document) : Result Collection :=
  (checkUnique name c.indexes d c.documents).map fun _ => { c with documents := c.documents ++ [d] }

/-- The replacement as it is stored over a document: it keeps the stored `_id` and
may not carry another. -/
def replacement (stored d : Document) : Result Document :=
  match stored.get? idField with
  | none => .ok d
  | some id =>
    match d.get? idField with
    | none => .ok (d.insert idField id)
    | some other =>
      if other.equal id then .ok (d.insert idField id) else .error (.store .idChanged)

/-- Replaces the first document that satisfies a predicate; also tells how many were replaced. -/
def replaceOne (c : Collection) (name : String) (p : Predicate) (d : Document) :
    Result (Collection × Nat) :=
  match c.judge (some p) with
  | .error e => .error e
  | .ok judged =>
    match splitMatch? judged with
    | none => .ok (c, 0)
    | some (before, stored, after) =>
      match replacement stored d with
      | .error e => .error e
      | .ok d =>
        (checkUnique name c.indexes d (before ++ after)).map fun _ =>
          ({ c with documents := before ++ d :: after }, 1)

/-- Removes the first document that satisfies a predicate. -/
def deleteOne (c : Collection) (p : Predicate) : Result (Collection × Nat) :=
  (c.judge (some p)).map fun judged =>
    match splitMatch? judged with
    | none => (c, 0)
    | some (before, _, after) => ({ c with documents := before ++ after }, 1)

/-- Removes all documents that satisfy a predicate. -/
def deleteMany (c : Collection) (p : Option Predicate) : Result (Collection × Nat) :=
  (c.judge p).map fun judged =>
    ({ c with documents := (judged.filter fun j => !j.2).map Prod.fst },
      (judged.filter Prod.snd).length)

def count (c : Collection) (p : Option Predicate) : Result Nat := (c.matching p).map List.length

/-- What sorting sees of a field; a missing one counts as null. -/
def sortKey (field : String) (d : Document) : Operand := (d.operand? field).getD .null

/-- Whether the first document may stand before the second. -/
def inOrder (s : SortOrder) (a b : Document) : Bool :=
  match s.direction with
  | .asc => (sortKey s.field a).sortOrdering (sortKey s.field b) != .gt
  | .desc => (sortKey s.field b).sortOrdering (sortKey s.field a) != .gt

/-- Sorts; documents that may stand either way round keep their order. -/
def arrange (s : Option SortOrder) (ds : List Document) : List Document :=
  match s with
  | none => ds
  | some s => ds.mergeSort (inOrder s)

/-- Filters, sorts, cuts out the window, and selects fields of what is left. -/
def find (c : Collection) (q : Query) : Result (List Document) :=
  match c.matching q.filter with
  | .error e => .error e
  | .ok ds => (q.window (arrange q.sort ds)).mapM q.selection.apply

/-- Refuses documents that collide among themselves in one index. -/
def checkDistinct (name : String) (spec : IndexSpec) : List Document → List Document → Result Unit
  | _, [] => .ok ()
  | earlier, d :: rest =>
    match checkUnique name [spec] d earlier with
    | .error e => .error e
    | .ok _ => checkDistinct name spec (earlier ++ [d]) rest

/-- Adds an index in place of one of the same name. At most one is a text index, and
a unique one is refused if stored documents already collide. -/
def createIndex (c : Collection) (name : String) (spec : IndexSpec) : Result Collection :=
  if spec.isText && c.indexes.any fun other => other.isText && other.name ≠ spec.name then
    .error (.store (.secondTextIndex name))
  else
    let created := { c with indexes := (c.indexes.filter fun other => other.name ≠ spec.name) ++ [spec] }
    if spec.isUnique then (checkDistinct name spec [] c.documents).map fun _ => created
    else .ok created

/-- Descriptions of all indexes, the one on `_id` first. -/
def listIndexes (c : Collection) : List Document :=
  idIndexDescription :: c.indexes.map IndexSpec.describe

/-- The key of a document in an index, as it is stored. -/
def indexKey (spec : IndexSpec) (d : Document) : Document :=
  Fields.ofPairs (spec.fieldNames.filterMap fun field => (d.lookup? field).map fun v => (field, v))

/-- The sum of a measure over a list. -/
def sumOf {α : Type} (f : α → Nat) : List α → Nat
  | [] => 0
  | a :: rest => f a + sumOf f rest

def size (c : Collection) : Nat := sumOf Document.size c.documents

def idIndexSize (c : Collection) : Nat :=
  sumOf (fun d =>
    match d.get? idField with
    | some id => Document.size [(idField, id)]
    | none => 0) c.documents

def indexSize (c : Collection) : Nat :=
  c.idIndexSize +
    sumOf (fun spec => sumOf (fun d => (indexKey spec d).size) c.documents) c.indexes

def stats (c : Collection) (name : String) : Document :=
  let long (n : Nat) : Value := .int64 (Int64.ofNat n)
  [("ns", .string name), ("count", long c.documents.length), ("size", long c.size),
    ("avgObjSize", long (c.size / c.documents.length)), ("totalIndexSize", long c.indexSize),
    ("nindexes", .int32 (Int32.ofNat (c.indexes.length + 1)))]

end Collection
end Docbase
