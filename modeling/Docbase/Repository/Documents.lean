/-
Repositories of plain documents. Documents are addressed by their `_id`, of
whatever type it is.
-/
import Docbase.Repository.Binding
import Docbase.Text.Blank

namespace Docbase

structure DocumentRepository where
  binding : Binding
  deriving DecidableEq

namespace DocumentRepository

open Binding

/-- A repository that is not bound yet. -/
def named (collection : String) : Result DocumentRepository :=
  let name := Text.trim collection
  if name.isEmpty then .error (.invalidArgument "collection")
  else .ok ⟨⟨name, "DocumentRepository(" ++ name ++ ")", false⟩⟩

def bind (r : DocumentRepository) : DocumentRepository := ⟨{ r.binding with bound := true }⟩

/-- The predicate that a document is found by. -/
def idPredicate (d : Document) : Result Predicate :=
  match d.get? idField with
  | some id => .ok (.eq idField id)
  | none => .error (.propertyIdNotFound "document")

def add (r : DocumentRepository) (d : Document) : Server.Step Document :=
  r.binding.run fun s =>
    let (d, s) := s.identified d
    andThen (Server.insert r.binding.collection d) (fun _ => check (.ok d)) s

/-- Replaces the stored document of the same `_id`, if there is one. -/
def update (r : DocumentRepository) (d : Document) : Server.Step Document :=
  r.binding.run (andThen (check (idPredicate d)) fun p =>
    andThen (Server.replaceOne r.binding.collection p d) fun _ => check (.ok d))

/-- Deletes the stored document of the same `_id`, if there is one. -/
def delete (r : DocumentRepository) (d : Document) : Server.Step Document :=
  r.binding.run (andThen (check (idPredicate d)) fun p =>
    andThen (Server.deleteOne r.binding.collection p) fun _ => check (.ok d))

def findBy (r : DocumentRepository) (f : Filter) : Server.Step (List Document) := r.binding.findBy f

def listAll (r : DocumentRepository) : Server.Step (List Document) := r.binding.find .all

def list (r : DocumentRepository) (p : Predicate) : Server.Step (List Document) :=
  r.binding.findSorted (some p) none

end DocumentRepository
end Docbase
