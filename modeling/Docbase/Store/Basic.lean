/-
A store of named collections. Reading or deleting in a collection that does not
exist finds nothing; inserting a document or creating an index brings the
collection into being. An operation that fails leaves no new store.
-/
import Docbase.Store.Collection

namespace Docbase

/-- Collections under their names, each name once. -/
structure Store where
  collections : Fields Collection

namespace Store

def empty : Store := ⟨[]⟩

def get? (s : Store) (name : String) : Option Collection := s.collections.get? name

/-- Puts a collection under its name, in place of an older one. -/
def put (s : Store) (name : String) (c : Collection) : Store := ⟨s.collections.insert name c⟩

def drop (s : Store) (name : String) : Store := ⟨s.collections.erase name⟩

/-- The names of all collections, sorted. -/
def names (s : Store) : List String :=
  s.collections.keys.mergeSort fun a b => (compare a b).isLE

/-- The collection under a name, empty if there is none. -/
def collection (s : Store) (name : String) : Collection := (s.get? name).getD .empty

def insert (s : Store) (name : String) (d : Document) : Result Store :=
  ((s.collection name).insert name d).map (s.put name)

/-- Runs a change on a collection that exists; on any other it changes nothing. -/
def update (s : Store) (name : String) (change : Collection → Result (Collection × Nat)) :
    Result (Store × Nat) :=
  match s.get? name with
  | none => .ok (s, 0)
  | some c => (change c).map fun (c, n) => (s.put name c, n)

def replaceOne (s : Store) (name : String) (p : Predicate) (d : Document) : Result (Store × Nat) :=
  s.update name fun c => c.replaceOne name p d

def deleteOne (s : Store) (name : String) (p : Predicate) : Result (Store × Nat) :=
  s.update name fun c => c.deleteOne p

def deleteMany (s : Store) (name : String) (p : Option Predicate) : Result (Store × Nat) :=
  s.update name fun c => c.deleteMany p

def find (s : Store) (name : String) (q : Query) : Result (List Document) :=
  match s.get? name with
  | none => .ok []
  | some c => c.find q

def count (s : Store) (name : String) (p : Option Predicate) : Result Nat :=
  match s.get? name with
  | none => .ok 0
  | some c => c.count p

def createIndex (s : Store) (name : String) (spec : IndexSpec) : Result Store :=
  ((s.collection name).createIndex name spec).map (s.put name)

def listIndexes (s : Store) (name : String) : List Document :=
  match s.get? name with
  | none => []
  | some c => c.listIndexes

def stats (s : Store) (name : String) : Document :=
  match s.get? name with
  | none =>
    [("ns", .string name), ("count", .int64 0), ("size", .int64 0), ("totalIndexSize", .int64 0),
      ("nindexes", .int32 0)]
  | some c => c.stats name

end Store
end Docbase
