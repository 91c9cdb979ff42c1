/-
A request that fails leaves the store as it was, whatever it asked for and wherever
it failed: before the store was reached, in a check of the store, or in reading what
the store returned.

A step `Spares` the store if it is as it was whenever the step fails. In all requests
the write comes after everything else that can fail: the steps before it only read
(`spares_andThen`), and what follows it answers in any case (`spares_andThen_ok`).
-/
import Docbase.Proofs.Repository.Entities
import Docbase.Proofs.Repository.Request

namespace Docbase

variable {α β : Type}

namespace Server

/-- A step that changes nothing. -/
def Reads (step : Step α) : Prop := ∀ s, (step s).2 = s

/-- A step that leaves the store as it was if it fails. -/
def Spares (step : Step α) : Prop := ∀ s e t, step s = (.error e, t) → t.store = s.store

theorem Reads.spares {step : Step α} (h : Reads step) : Spares step := by
  intro s e t hfail
  have hsame : (step s).2.store = s.store := congrArg Server.store (h s)
  rwa [hfail] at hsame

theorem reads_ask (question : Store → Result α) : Reads (ask question) := fun _ => rfl

theorem reads_stats (c : String) : Reads (stats c) := fun _ => rfl

theorem spares_change (f : Store → Result (Store × α)) : Spares (change f) := by
  intro s e t hfail
  unfold change at hfail
  split at hfail
  · cases hfail; rfl
  · cases hfail

/-- Before a document is inserted, an identifier may be drawn. -/
theorem spares_insert (c : String) (d : Document) : Spares (insert c d) := by
  intro s e t hfail
  rw [insert_eq] at hfail
  rw [← s.identified_store d]
  exact spares_change _ _ e t hfail

theorem spares_transact (call : TransactionCall) : Spares (transact call) := by
  intro s e t hfail
  unfold transact at hfail
  dsimp only at hfail
  split at hfail
  · cases hfail; rfl
  · cases hfail

theorem Request.run_spares (o : Server.Request α) : Spares o.run := by
  cases o with
  | insert collection d =>
    rw [Request.run, insertInPlace_eq]
    exact spares_insert collection d
  | replaceOne collection p d =>
    rw [Request.run, Store.replaceInPlace_eq, edit_whole]
    exact spares_change _
  | deleteOne collection p =>
    rw [Request.run, Store.deleteOneInPlace_eq, edit_whole]
    exact spares_change _
  | deleteMany collection p =>
    rw [Request.run, Store.deleteManyInPlace_eq, edit_whole]
    exact spares_change _
  | createIndex collection spec =>
    rw [Request.run, Store.createIndexInPlace_eq, edit_whole]
    exact spares_change _
  | drop collection =>
    rw [Request.run]
    exact spares_change _
  | find collection q =>
    rw [Request.run]
    exact (reads_ask _).spares
  | count collection p =>
    rw [Request.run]
    exact (reads_ask _).spares
  | stats collection => exact (reads_stats collection).spares
  | listIndexes collection =>
    rw [Request.run]
    exact (reads_ask _).spares
  | names =>
    rw [Request.run]
    exact (reads_ask _).spares
  | transact call => exact spares_transact call

end Server

open Server

namespace Binding

/-! ## Steps put together -/

theorem reads_check (r : Result α) : Reads (check r) := fun _ => rfl

theorem reads_andThen {first : Step α} {next : α → Step β} (hfirst : Reads first)
    (hnext : ∀ a, Reads (next a)) : Reads (andThen first next) := by
  intro s
  unfold andThen
  split
  · next heq => exact (congrArg Prod.snd heq).symm.trans (hfirst s)
  · next a t heq =>
    have hs : t = s := (congrArg Prod.snd heq).symm.trans (hfirst s)
    exact (hnext a t).trans hs

theorem reads_run {step : Step α} (b : Binding) (h : Reads step) : Reads (b.run step) := by
  intro s
  unfold Binding.run
  split
  · exact h s
  · rfl

/-- Steps that only read may come before. -/
theorem spares_andThen {first : Step α} {next : α → Step β} (hfirst : Reads first)
    (hnext : ∀ a, Spares (next a)) : Spares (andThen first next) := by
  intro s e t hfail
  unfold andThen at hfail
  split at hfail
  · next heq =>
    cases hfail
    exact hfirst.spares s e t heq
  · next a u heq =>
    obtain rfl : u = s := (congrArg Prod.snd heq).symm.trans (hfirst s)
    exact hnext a u e t hfail

/-- Steps that answer in any case may come after. -/
theorem spares_andThen_ok {first : Step α} (f : α → β) (hfirst : Spares first) :
    Spares (andThen first fun a => check (.ok (f a))) := by
  intro s e t hfail
  unfold andThen at hfail
  split at hfail
  · next heq =>
    cases hfail
    exact hfirst s e t heq
  · cases hfail

theorem spares_run {step : Step α} (b : Binding) (h : Spares step) : Spares (b.run step) := by
  intro s e t hfail
  unfold Binding.run at hfail
  split at hfail
  · exact h s e t hfail
  · cases hfail; rfl

/-! ## Requests -/

theorem reads_stats (b : Binding) : Reads b.stats := b.reads_run (Server.reads_stats b.collection)

theorem reads_measure (b : Binding) (f : Document → Nat) : Reads (b.measure f) :=
  reads_andThen b.reads_stats fun _ => reads_check _

theorem reads_find (b : Binding) (q : Query) : Reads (b.find q) := b.reads_run (reads_ask _)

theorem reads_findBy (b : Binding) (f : Filter) : Reads (b.findBy f) := by
  unfold findBy
  split
  · exact b.reads_run (reads_check _)
  · exact b.reads_find _

theorem spares_createIndex (b : Binding) (spec : IndexSpec) : Spares (b.createIndex spec) :=
  b.spares_run (spares_andThen (reads_check _) fun _ => spares_change _)

theorem Request.run_spares (b : Binding) (o : Binding.Request α) : Spares (o.run b) := by
  cases o with
  | stats => exact b.reads_stats.spares
  | count => exact (b.reads_measure _).spares
  | size => exact (b.reads_measure _).spares
  | indexSize => exact (b.reads_measure _).spares
  | totalSize => exact (b.reads_measure _).spares
  | deleteAll => exact b.spares_run (spares_change _)
  | drop => exact b.spares_run (spares_change _)
  | createIndex spec => exact b.spares_createIndex spec
  | createIndexWith spec properties => exact b.spares_createIndex _
  | listIndexes => exact (b.reads_run (reads_ask _)).spares

end Binding

open Binding

theorem DocumentRepository.Request.run_spares (r : DocumentRepository)
    (o : DocumentRepository.Request α) : Spares (o.run r) := by
  cases o with
  | add d =>
    refine r.binding.spares_run fun s e t hfail => ?_
    rw [← s.identified_store d]
    exact spares_andThen_ok _ (spares_insert r.binding.collection (s.identified d).1) _ e t hfail
  | update d =>
    exact r.binding.spares_run (spares_andThen (reads_check _) fun _ => spares_andThen_ok _ (spares_change _))
  | delete d =>
    exact r.binding.spares_run (spares_andThen (reads_check _) fun _ => spares_andThen_ok _ (spares_change _))
  | findBy f => exact (r.binding.reads_findBy f).spares
  | listAll => exact (r.binding.reads_find _).spares
  | list p => exact (r.binding.reads_find _).spares

namespace Repository

variable {ε : Type} [Entity ε]

theorem reads_find? (r : Repository ε) (id : String) : Reads (r.find? id) := by
  refine r.binding.reads_run (reads_andThen (reads_check _) fun p => reads_andThen (reads_ask _) fun ds => ?_)
  cases ds with
  | nil => exact reads_check _
  | cons d ds => exact reads_check _

omit [Entity ε] in
theorem reads_contains (r : Repository ε) (id : String) : Reads (r.contains id) :=
  r.binding.reads_run (reads_andThen (reads_check _) fun _ =>
    reads_andThen (reads_ask _) fun _ => reads_check _)

theorem reads_findBy (r : Repository ε) (f : Filter) : Reads (r.findBy f) :=
  reads_andThen (r.binding.reads_findBy f) fun _ => reads_check _

theorem reads_listAll (r : Repository ε) : Reads r.listAll :=
  reads_andThen (r.binding.reads_find _) fun _ => reads_check _

theorem reads_list (r : Repository ε) (p : Predicate) : Reads (r.list p) :=
  reads_andThen (r.binding.reads_find _) fun _ => reads_check _

omit [Entity ε] in
theorem reads_project (r : Repository ε) (q : ProjectionQuery) : Reads (r.project q) :=
  r.binding.reads_run (reads_andThen (reads_ask _) fun _ => reads_andThen (reads_ask _) fun _ => reads_check _)

theorem Request.run_spares (r : Repository ε) (o : Repository.Request ε α) : Spares (o.run r) := by
  cases o with
  | add e =>
    refine r.binding.spares_run (spares_andThen (reads_check _) fun _ s error t hfail => ?_)
    rw [← identified_store e s]
    have hwrite := spares_andThen (reads_check (Entity.encode (identified e s).1)) fun d =>
      spares_andThen_ok (fun _ => Entity.setTracker (identified e s).1 .unchanged)
        (spares_insert r.binding.collection d)
    exact hwrite (identified e s).2 error t hfail
  | update e =>
    exact r.binding.spares_run (spares_andThen (reads_check _) fun _ => spares_andThen (reads_check _) fun _ =>
      spares_andThen (reads_check _) fun _ => spares_andThen_ok _ (spares_change _))
  | delete e =>
    exact r.binding.spares_run (spares_andThen (reads_check _) fun _ => spares_andThen (reads_check _) fun _ =>
      spares_andThen_ok _ (spares_change _))
  | contains id => exact (r.reads_contains id).spares
  | find id => exact (r.reads_find? id).spares
  | findBy f => exact (r.reads_findBy f).spares
  | listAll => exact r.reads_listAll.spares
  | list p => exact (r.reads_list p).spares
  | project q => exact (r.reads_project q).spares

end Repository

/-- **A request that fails leaves the store as it was**: the same collections under the same names,
with the same documents and indexes in the same order. -/
theorem Operation.failed_unchanged (o : Operation α) {s t : Server} {e : Error}
    (h : o.run s = (.error e, t)) : t.store = s.store := by
  cases o with
  | server o => exact o.run_spares s e t h
  | shared b o => exact o.run_spares b s e t h
  | documents r o => exact o.run_spares r s e t h
  | entities r o => exact o.run_spares r s e t h

/-- Two documents of one name are stored, so a unique index on names is refused, and not created. -/
theorem failed_unchanged_of_unique_index :
    let b : Binding := ⟨"notes", "DocumentRepository(notes)", true⟩
    let calls : List Call :=
      [.insert "notes" ⟨[("_id", .string "x"), ("name", .string "a")], by decide⟩,
        .insert "notes" ⟨[("_id", .string "y"), ("name", .string "a")], by decide⟩]
    let s := calls.foldl Call.run .empty
    let o : Operation Unit := .shared b (.createIndex ⟨" byName ", [⟨"name", .ascending⟩], true, .standard⟩)
    s.Reachable ∧ (o.run s).1 = .error (.alreadyExists "y" "notes") ∧ (o.run s).2.store = s.store := by
  intro b calls s o
  have hs : s.Reachable := (Reachable.init rfl).calls calls
  have hfail : (o.run s).1 = .error (.alreadyExists "y" "notes") := by rfl
  exact ⟨hs, hfail, o.failed_unchanged (Prod.ext hfail rfl)⟩

end Docbase
