/-
A store as its clients see it: with a source of fresh identifiers, with or
without transactions, and possibly with statistics of its own. Every operation
is one atomic step; one that fails leaves the documents and indexes as they
were.

Identifiers are counted. Transactions bracket no data here: the calls are only
recorded, and refused as often as they are listed.
-/
import Docbase.Session
import Docbase.Store.Basic

namespace Docbase

structure Server where
  store : Store
  /-- How many identifiers have been given out. -/
  issued : Nat
  supportsTransactions : Bool
  /-- The calls to be refused; each entry serves once. -/
  refusals : List TransactionCall
  /-- The transaction calls so far. -/
  calls : List TransactionCall
  /-- The statistics that every collection reports, if they are fixed. -/
  statistics : Option Document

namespace Server

def empty : Server := ⟨.empty, 0, false, [], [], none⟩

/-- A step that may fail; what it leaves behind is there in either case. -/
abbrev Step (α : Type) := Server → Result α × Server

/-- The identifier with a number: a letter code and the number in twenty-three digits. -/
def identifier (n : Nat) : String :=
  let digits := Nat.toDigits 10 n
  String.ofList (['G', 'E', 'N'] ++ List.replicate (23 - digits.length) '0' ++ digits)

/-- A new identifier. -/
def fresh (s : Server) : String × Server :=
  (identifier (s.issued + 1), { s with issued := s.issued + 1 })

/-- Looks at the store. -/
def ask {α : Type} (question : Store → Result α) : Step α := fun s => (question s.store, s)

/-- Changes the store, if the change succeeds. -/
def change {α : Type} (f : Store → Result (Store × α)) : Step α := fun s =>
  match f s.store with
  | .error e => (.error e, s)
  | .ok (store, a) => (.ok a, { s with store })

/-- A document with an identifier: its own, or a fresh one at its end. -/
def identified (s : Server) (d : Document) : Document × Server :=
  if d.contains idField then (d, s)
  else
    let (id, s) := s.fresh
    (d.insert idField (.string id), s)

def insert (c : String) (d : Document) : Step Unit := fun s =>
  let (d, s) := s.identified d
  change (fun store => (store.insert c d).map fun store => (store, ())) s

def replaceOne (c : String) (p : Predicate) (d : Document) : Step Nat :=
  change fun store => store.replaceOne c p d

def deleteOne (c : String) (p : Predicate) : Step Nat := change fun store => store.deleteOne c p

def deleteMany (c : String) (p : Option Predicate) : Step Nat :=
  change fun store => store.deleteMany c p

def find (c : String) (q : Query) : Step (List Document) := ask fun store => store.find c q

def count (c : String) (p : Option Predicate) : Step Nat := ask fun store => store.count c p

def stats (c : String) : Step Document := fun s =>
  (.ok (s.statistics.getD (s.store.stats c)), s)

def createIndex (c : String) (spec : IndexSpec) : Step Unit :=
  change fun store => (store.createIndex c spec).map fun store => (store, ())

def listIndexes (c : String) : Step (List Document) := ask fun store => .ok (store.listIndexes c)

def drop (c : String) : Step Unit := change fun store => .ok (store.drop c, ())

def names : Step (List String) := ask fun store => .ok store.names

/-- The answer to a transaction call, which is recorded either way. -/
def transact (call : TransactionCall) : Step Unit := fun s =>
  let s := { s with calls := s.calls ++ [call] }
  if s.refusals.contains call then
    (.error (.store (.callRefused call.word)), { s with refusals := s.refusals.erase call })
  else (.ok (), s)

/-- Carries out a request of a session. -/
def request (session : Session) (call : TransactionCall) (s : Server) :
    Result Unit × Session × Server :=
  if session.reaches s.supportsTransactions call then
    let (answer, s) := s.transact call
    (answer, session.answered call answer, s)
  else (.ok (), session, s)

end Server
end Docbase
