/-
What clients ask, as data: of a server, of what all repositories have in common
(`Binding`; the indexes of a collection are among it), of repositories of documents,
and of repositories of entities. A request says what type its answer has, and `run`
carries it out.

The writes that a server is asked for directly are carried out as they go
(`Proofs/Store/InPlace`), which comes to the same as its own steps.
-/
import Docbase.Proofs.Store.InPlace
import Docbase.Repository.Basic
import Docbase.Repository.Documents

namespace Docbase

variable {α : Type}

inductive Server.Request : Type → Type where
  | insert (collection : String) (d : Document) : Request Unit
  | replaceOne (collection : String) (p : Predicate) (d : Document) : Request Nat
  | deleteOne (collection : String) (p : Predicate) : Request Nat
  | deleteMany (collection : String) (p : Option Predicate) : Request Nat
  | createIndex (collection : String) (spec : IndexSpec) : Request Unit
  | drop (collection : String) : Request Unit
  | find (collection : String) (q : Query) : Request (List Document)
  | count (collection : String) (p : Option Predicate) : Request Nat
  | stats (collection : String) : Request Document
  | listIndexes (collection : String) : Request (List Document)
  | names : Request (List String)
  | transact (call : TransactionCall) : Request Unit

def Server.Request.run : Server.Request α → Server.Step α
  | .insert collection d => insertInPlace collection d
  | .replaceOne collection p d => edit (Store.replaceInPlace collection p d)
  | .deleteOne collection p => edit (Store.deleteOneInPlace collection p)
  | .deleteMany collection p => edit (Store.deleteManyInPlace collection p)
  | .createIndex collection spec => edit (Store.createIndexInPlace collection spec)
  | .drop collection => Server.drop collection
  | .find collection q => Server.find collection q
  | .count collection p => Server.count collection p
  | .stats collection => Server.stats collection
  | .listIndexes collection => Server.listIndexes collection
  | .names => Server.names
  | .transact call => Server.transact call

inductive Binding.Request : Type → Type where
  | stats : Request Document
  | count : Request Nat
  | size : Request Nat
  | indexSize : Request Nat
  | totalSize : Request Nat
  | deleteAll : Request Nat
  | drop : Request Unit
  | createIndex (spec : IndexSpec) : Request Unit
  | createIndexWith (spec : IndexSpec) (properties : Document) : Request Unit
  | listIndexes : Request (List Document)

def Binding.Request.run (b : Binding) : Binding.Request α → Server.Step α
  | .stats => b.stats
  | .count => b.count
  | .size => b.size
  | .indexSize => b.indexSize
  | .totalSize => b.totalSize
  | .deleteAll => b.deleteAll
  | .drop => b.drop
  | .createIndex spec => b.createIndex spec
  | .createIndexWith spec properties => b.createIndexWith spec properties
  | .listIndexes => b.listIndexes

inductive DocumentRepository.Request : Type → Type where
  | add (d : Document) : Request Document
  | update (d : Document) : Request Document
  | delete (d : Document) : Request Document
  | findBy (f : Filter) : Request (List Document)
  | listAll : Request (List Document)
  | list (p : Predicate) : Request (List Document)

def DocumentRepository.Request.run (r : DocumentRepository) :
    DocumentRepository.Request α → Server.Step α
  | .add d => r.add d
  | .update d => r.update d
  | .delete d => r.delete d
  | .findBy f => r.findBy f
  | .listAll => r.listAll
  | .list p => r.list p

/-- What is asked of a repository of entities of type `ε`. -/
inductive Repository.Request (ε : Type) : Type → Type where
  | add (e : ε) : Request ε ε
  | update (e : ε) : Request ε ε
  | delete (e : ε) : Request ε ε
  | contains (id : String) : Request ε Bool
  | find (id : String) : Request ε (Option ε)
  | findBy (f : Filter) : Request ε (List ε)
  | listAll : Request ε (List ε)
  | list (p : Predicate) : Request ε (List ε)
  | project (q : ProjectionQuery) : Request ε Page

def Repository.Request.run {ε : Type} [Entity ε] (r : Repository ε) :
    Repository.Request ε α → Server.Step α
  | .add e => r.add e
  | .update e => r.update e
  | .delete e => r.delete e
  | .contains id => r.contains id
  | .find id => r.find? id
  | .findBy f => r.findBy f
  | .listAll => r.listAll
  | .list p => r.list p
  | .project q => r.project q

/-- Any of these requests, with an answer of type `α`; entities may be of any type. -/
inductive Operation (α : Type) : Type 1 where
  | server (o : Server.Request α)
  | shared (b : Binding) (o : Binding.Request α)
  | documents (r : DocumentRepository) (o : DocumentRepository.Request α)
  | entities {ε : Type} [Entity ε] (r : Repository ε) (o : Repository.Request ε α)

def Operation.run : Operation α → Server.Step α
  | .server o => o.run
  | .shared b o => o.run b
  | .documents r o => o.run r
  | @Operation.entities _ _ _ r o => o.run r

end Docbase
