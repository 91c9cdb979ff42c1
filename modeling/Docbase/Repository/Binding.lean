/-
What all repositories have in common: a collection, and whether a context has
been bound to work in. Every operation on the store asks for the context first.
-/
import Docbase.Store.Server

namespace Docbase

structure Binding where
  collection : String
  /-- How messages name the repository. -/
  owner : String
  bound : Bool
  deriving DecidableEq

namespace Binding

/-- A step that needs a context. -/
def run {α : Type} (b : Binding) (step : Server.Step α) : Server.Step α := fun s =>
  if b.bound then step s else (.error (.contextNotInitialized b.owner), s)

/-- A step that follows another, if that succeeds. -/
def andThen {α β : Type} (first : Server.Step α) (next : α → Server.Step β) : Server.Step β :=
  fun s =>
    match first s with
    | (.error e, s) => (.error e, s)
    | (.ok a, s) => next a s

/-- A check or a computation that leaves the server alone. -/
def check {α : Type} (r : Result α) : Server.Step α := fun s => (r, s)

/-- One field of a statistics document as a count: whole numbers from zero, and the
whole part of positive doubles; everything else counts as nothing. -/
def statistic (stats : Document) (key : String) : Nat :=
  match stats.get? key with
  | some (.int32 i) => i.toInt.toNat
  | some (.int64 i) => i.toInt.toNat
  | some (.double x) =>
    if x.isNaN || x.isNegative then 0
    else if x.isInfinite then Integer.countMax
    else min x.wholePart Integer.countMax
  | _ => 0

def stats (b : Binding) : Server.Step Document := b.run (Server.stats b.collection)

/-- A count read off the statistics. -/
def measure (b : Binding) (f : Document → Nat) : Server.Step Nat :=
  andThen b.stats fun stats => check (.ok (f stats))

def count (b : Binding) : Server.Step Nat := b.measure fun stats => statistic stats "count"

def size (b : Binding) : Server.Step Nat := b.measure fun stats => statistic stats "size"

def indexSize (b : Binding) : Server.Step Nat :=
  b.measure fun stats => statistic stats "totalIndexSize"

def totalSize (b : Binding) : Server.Step Nat :=
  b.measure fun stats => statistic stats "totalIndexSize" + statistic stats "size"

def deleteAll (b : Binding) : Server.Step Nat := b.run (Server.deleteMany b.collection none)

def drop (b : Binding) : Server.Step Unit := b.run (Server.drop b.collection)

/-- Creates an index under trimmed names. -/
def createIndex (b : Binding) (spec : IndexSpec) : Server.Step Unit :=
  b.run (andThen (check spec.validate) (Server.createIndex b.collection))

/-- Creates an index whose text options come from loosely typed properties. -/
def createIndexWith (b : Binding) (spec : IndexSpec) (properties : Document) : Server.Step Unit :=
  b.createIndex (spec.withProperties properties)

def listIndexes (b : Binding) : Server.Step (List Document) :=
  b.run (Server.listIndexes b.collection)

def find (b : Binding) (q : Query) : Server.Step (List Document) :=
  b.run (Server.find b.collection q)

/-- All documents that satisfy a predicate, in an order. -/
def findSorted (b : Binding) (p : Option Predicate) (sort : Option SortOrder) :
    Server.Step (List Document) :=
  b.find { Query.all with filter := p, sort }

/-- What a filter finds; one without a predicate finds nothing. -/
def findBy (b : Binding) (f : Filter) : Server.Step (List Document) :=
  match f.predicate with
  | none => b.run (check (.ok []))
  | some p => b.findSorted (some p) f.sort

end Binding
end Docbase
