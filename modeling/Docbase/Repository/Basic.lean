/-
Repositories of one entity type. An entity that is added without an identifier
gets a fresh one; updating and deleting address the stored document by the
trimmed identifier. Writes ask that the type keeps its identifiers as strings
under `_id`.

A page is read in two steps, the number of documents and then the documents.
-/
import Docbase.Entity.Basic
import Docbase.Page
import Docbase.Repository.Binding

namespace Docbase

structure Repository (α : Type) where
  binding : Binding
  deriving DecidableEq

namespace Repository

open Binding

variable {α : Type} [Entity α]

/-- A repository that is not bound yet, over a collection or, for a blank name, over
that of the type. -/
def named (α : Type) [Entity α] (collection : Option String) : Repository α :=
  let name := Text.trim (collection.getD "")
  ⟨⟨if name.isEmpty then Entity.collectionName α else name,
    "Repository<" ++ Entity.typeName α ++ ">", false⟩⟩

def bind (r : Repository α) : Repository α := ⟨{ r.binding with bound := true }⟩

def ensureStringId (α : Type) [Entity α] : Result Unit :=
  if Entity.keepsStringId α then .ok () else .error (.propertyIdNotFound (Entity.typeName α))

/-- The trimmed identifier of an entity that has been stored. -/
def persistedId (e : α) : Result String :=
  let id := Text.trim ((Entity.id e).getD "")
  if id.isEmpty then .error (.incoherentEntityState (Entity.typeName α)) else .ok id

/-- The predicate that an identifier is found by. -/
def idPredicate (id : String) : Result Predicate :=
  let id := Text.trim id
  if id.isEmpty then .error (.invalidArgument "id") else .ok (.eq idField (.string id))

/-- The entity with an identifier: its own, or a fresh one. -/
def identified (e : α) (s : Server) : α × Server :=
  if Entity.hasId e then (e, s)
  else
    let (id, s) := s.fresh
    (Entity.setId e id, s)

def add (r : Repository α) (e : α) : Server.Step α :=
  r.binding.run (andThen (check (ensureStringId α)) fun _ s =>
    let (e, s) := identified e s
    andThen (check (Entity.encode e))
      (fun d => andThen (Server.insert r.binding.collection d)
        fun _ => check (.ok (Entity.setTracker e .unchanged))) s)

/-- Replaces the stored form of an entity, if there is one. -/
def update (r : Repository α) (e : α) : Server.Step α :=
  r.binding.run (andThen (check (ensureStringId α)) fun _ =>
    andThen (check (persistedId e)) fun id =>
      andThen (check (Entity.encode e)) fun d =>
        andThen (Server.replaceOne r.binding.collection (.eq idField (.string id)) d)
          fun _ => check (.ok (Entity.setTracker e .unchanged)))

/-- Deletes the stored form of an entity, if there is one. -/
def delete (r : Repository α) (e : α) : Server.Step α :=
  r.binding.run (andThen (check (ensureStringId α)) fun _ =>
    andThen (check (persistedId e)) fun id =>
      andThen (Server.deleteOne r.binding.collection (.eq idField (.string id)))
        fun _ => check (.ok e))

def contains (r : Repository α) (id : String) : Server.Step Bool :=
  r.binding.run (andThen (check (idPredicate id)) fun p =>
    andThen (Server.count r.binding.collection (some p)) fun n => check (.ok (0 < n)))

/-- The entities of stored documents. -/
def decodeAll (ds : List Document) : Result (List α) := ds.mapM Entity.ofDocument

def find? (r : Repository α) (id : String) : Server.Step (Option α) :=
  r.binding.run (andThen (check (idPredicate id)) fun p =>
    andThen (Server.find r.binding.collection { Query.all with filter := some p, limit := some 1 })
      fun ds =>
        match ds with
        | [] => check (.ok none)
        | d :: _ => check ((Entity.ofDocument d).map some))

def findBy (r : Repository α) (f : Filter) : Server.Step (List α) :=
  andThen (r.binding.findBy f) fun ds => check (decodeAll ds)

def listAll (r : Repository α) : Server.Step (List α) :=
  andThen (r.binding.find .all) fun ds => check (decodeAll ds)

def list (r : Repository α) (p : Predicate) : Server.Step (List α) :=
  andThen (r.binding.findSorted (some p) none) fun ds => check (decodeAll ds)

/-- The second step of reading a page: the documents of the window that was found for
the count of the first step. -/
def readPage (r : Repository α) (q : ProjectionQuery) (count : Nat) : Server.Step Page :=
  let window := q.request.window count
  andThen (Server.find r.binding.collection (q.storeQuery window)) fun ds =>
    check (.ok (Page.ofDocuments count window ds q.strategy))

def project (r : Repository α) (q : ProjectionQuery) : Server.Step Page :=
  r.binding.run (andThen (Server.count r.binding.collection none) (r.readPage q))

end Repository
end Docbase
