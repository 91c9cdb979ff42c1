/-
The states of a server, and what is true in all of them.

`Server.Reachable` is every state that calls of any number of clients lead to
from an empty store, each call an atomic step, those that fail included. A step
that leaves the store alone may change anything else: how identifiers are
drawn, and what transaction calls are answered.

`Call.run_valid` is what one call preserves; `reachable_valid` follows for whole
runs, and says what it comes to for the documents and indexes of a collection.
-/
import Docbase.Proofs.Store.Invariant
import Docbase.Proofs.Store.Update
import Docbase.Store.Server

namespace Docbase

namespace Store

variable {s s' : Store} {name : String}

/-! ## Properties of all collections -/

/-- Whether all collections of a store have a property. -/
def All (P : Collection → Prop) (s : Store) : Prop := ∀ name c, s.get? name = some c → P c

variable {P : Collection → Prop}

theorem All.empty : Store.empty.All P := by
  intro name c h
  cases h

/-- A collection that does not exist counts as empty. -/
theorem All.collection (h : s.All P) (hempty : P .empty) (name : String) : P (s.collection name) := by
  unfold Store.collection
  cases hget : s.get? name with
  | none => exact hempty
  | some c => exact h name c hget

theorem All.put (h : s.All P) (name : String) {c : Collection} (hc : P c) : (s.put name c).All P := by
  intro other c' hget
  simp only [Store.put, Store.get?] at hget
  by_cases hname : other = name
  · subst hname
    rw [Fields.get?_insert_self] at hget
    cases hget
    exact hc
  · rw [Fields.get?_insert_of_ne _ _ hname] at hget
    exact h other c' hget

theorem All.drop (h : s.All P) (name : String) : (s.drop name).All P := by
  intro other c hget
  simp only [Store.drop, Store.get?] at hget
  by_cases hname : other = name
  · subst hname
    rw [Fields.get?_erase_self] at hget
    cases hget
  · rw [Fields.get?_erase_of_ne _ hname] at hget
    exact h other c hget

/-- A change that keeps a property of collections keeps it in the whole store. -/
theorem All.update (h : s.All P) {change : Collection → Result (Collection × Nat)} {n : Nat}
    (hchange : ∀ c c' n, P c → change c = .ok (c', n) → P c')
    (hupdate : s.update name change = .ok (s', n)) : s'.All P := by
  unfold Store.update at hupdate
  split at hupdate
  · cases hupdate; exact h
  · next c hget =>
    obtain ⟨⟨c', _⟩, hc, heq⟩ := map_eq_ok_iff.1 hupdate
    cases heq
    exact h.put name (hchange c c' _ (h name c hget) hc)

theorem All.insert (h : s.All P) (hempty : P .empty) {d : Document}
    (hchange : ∀ c c', P c → c.insert name d = .ok c' → P c') (hinsert : s.insert name d = .ok s') :
    s'.All P := by
  obtain ⟨c, hc, rfl⟩ := map_eq_ok_iff.1 hinsert
  exact h.put name (hchange _ c (h.collection hempty name) hc)

theorem All.createIndex (h : s.All P) (hempty : P .empty) {spec : IndexSpec}
    (hchange : ∀ c c', P c → c.createIndex name spec = .ok c' → P c')
    (hcreate : s.createIndex name spec = .ok s') : s'.All P := by
  obtain ⟨c, hc, rfl⟩ := map_eq_ok_iff.1 hcreate
  exact h.put name (hchange _ c (h.collection hempty name) hc)

def Valid (s : Store) : Prop := ∀ name c, s.get? name = some c → c.Valid

theorem Valid.empty : Store.empty.Valid := All.empty

theorem Valid.collection (h : s.Valid) (name : String) : (s.collection name).Valid := All.collection h .empty name

theorem Valid.drop (h : s.Valid) (name : String) : (s.drop name).Valid := All.drop h name

/-- A change that keeps collections valid keeps the store valid. -/
theorem Valid.update (h : s.Valid) {change : Collection → Result (Collection × Nat)} {n : Nat}
    (hchange : ∀ c c' n, c.Valid → change c = .ok (c', n) → c'.Valid)
    (hupdate : s.update name change = .ok (s', n)) : s'.Valid := All.update h hchange hupdate

end Store

namespace Server

/-- Documents as clients send them: none of them holds a key twice. -/
abbrev Sent := { d : Document // Document.wellKeyed d = true }

/-- What clients ask of a store. -/
inductive Call where
  | insert (collection : String) (d : Sent)
  | replaceOne (collection : String) (p : Predicate) (d : Sent)
  | deleteOne (collection : String) (p : Predicate)
  | deleteMany (collection : String) (p : Option Predicate)
  | createIndex (collection : String) (spec : IndexSpec)
  | drop (collection : String)

/-- The server after a call, whether it failed or not. -/
def Call.run (s : Server) : Call → Server
  | .insert collection d => (Server.insert collection d.1 s).2
  | .replaceOne collection p d => (Server.replaceOne collection p d.1 s).2
  | .deleteOne collection p => (Server.deleteOne collection p s).2
  | .deleteMany collection p => (Server.deleteMany collection p s).2
  | .createIndex collection spec => (Server.createIndex collection spec s).2
  | .drop collection => (Server.drop collection s).2

inductive Reachable : Server → Prop where
  | init {s : Server} (h : s.store = .empty) : Reachable s
  | call {s : Server} (h : Reachable s) (call : Call) : Reachable (call.run s)
  | elsewhere {s t : Server} (h : Reachable s) (hstore : t.store = s.store) : Reachable t

theorem change_eq_ok_iff {α : Type} {f : Store → Result (Store × α)} {s t : Server} {a : α} :
    change f s = (.ok a, t) ↔ ∃ store, f s.store = .ok (store, a) ∧ { s with store } = t := by
  unfold change
  cases f s.store with
  | error e => simp
  | ok p => simp [and_comm, Prod.ext_iff]

/-- A change of the store that keeps a property of it is a step that does. -/
theorem change_keeps {α : Type} {I : Store → Prop} {f : Store → Result (Store × α)} {s : Server}
    (h : I s.store) (hf : ∀ store a, f s.store = .ok (store, a) → I store) : I (change f s).2.store := by
  unfold change
  split
  · exact h
  · next store a heq => exact hf store a heq

/-- A change that answers nothing, likewise. -/
theorem change_unit_keeps {I : Store → Prop} {f : Store → Result Store} {s : Server} (h : I s.store)
    (hf : ∀ store, f s.store = .ok store → I store) :
    I (change (fun store => (f store).map fun store => (store, ())) s).2.store := by
  refine change_keeps h fun store a heq => ?_
  obtain ⟨store', hstore, heq⟩ := map_eq_ok_iff.1 heq
  cases heq
  exact hf store hstore

/-- A change of the store that keeps it valid is a step that does. -/
theorem change_valid {α : Type} {f : Store → Result (Store × α)} {s : Server} (h : s.store.Valid)
    (hf : ∀ store a, f s.store = .ok (store, a) → store.Valid) : (change f s).2.store.Valid :=
  change_keeps h hf

theorem identified_store (s : Server) (d : Document) : (s.identified d).2.store = s.store := by
  unfold identified
  split <;> rfl

theorem insert_eq (collection : String) (d : Document) (s : Server) : insert collection d s =
    change (fun store => (store.insert collection (s.identified d).1).map fun store => (store, ()))
      (s.identified d).2 := rfl

theorem identified_wellKeyed (s : Server) {d : Document} (h : Document.wellKeyed d = true) :
    Document.wellKeyed (s.identified d).1 = true := by
  unfold identified
  split
  · exact h
  · exact Value.wellKeyed_insert h idField rfl

theorem identified_contains (s : Server) (d : Document) :
    Fields.contains (s.identified d).1 idField = true := by
  unfold identified
  split
  · next h => exact h
  · exact Fields.contains_insert_self _ _ _

theorem insert_valid {s : Server} (h : s.store.Valid) (collection : String) (d : Sent) :
    (insert collection d.1 s).2.store.Valid := by
  have hstore : (s.identified d.1).2.store.Valid := by rwa [identified_store]
  rw [insert_eq]
  refine change_unit_keeps hstore fun store => Store.All.insert hstore .empty fun c c' hc => ?_
  exact hc.insert (s.identified_wellKeyed d.2) (s.identified_contains d.1)

/-- One call keeps the store valid. -/
theorem Call.run_valid {s : Server} (h : s.store.Valid) (call : Call) : (call.run s).store.Valid := by
  cases call with
  | insert collection d => exact insert_valid h collection d
  | replaceOne collection p d =>
    exact change_valid h fun _ _ => h.update fun _ _ _ hc => hc.replaceOne d.2
  | deleteOne collection p => exact change_valid h fun _ _ => h.update fun _ _ _ hc => hc.deleteOne
  | deleteMany collection p => exact change_valid h fun _ _ => h.update fun _ _ _ hc => hc.deleteMany
  | createIndex collection spec =>
    exact change_unit_keeps h fun _ => Store.All.createIndex h .empty fun _ _ hc => hc.createIndex
  | drop collection =>
    refine change_valid h fun store a hdrop => ?_
    cases hdrop
    exact h.drop collection

theorem Reachable.valid {s : Server} (h : s.Reachable) : s.store.Valid := by
  induction h with
  | init h => rw [h]; exact .empty
  | call _ call ih => exact call.run_valid ih
  | elsewhere _ hstore ih => rw [hstore]; exact ih

/-- Calls one after the other stay within the reachable states. -/
theorem Reachable.calls {s : Server} (h : s.Reachable) (calls : List Call) :
    (calls.foldl Call.run s).Reachable := by
  induction calls generalizing s with
  | nil => exact h
  | cons call calls ih => exact ih (h.call call)

/-- **What is true of every collection at any time.** Every document has an `_id`; no two documents
have equal ones, nor agree on all fields of a unique index; and at most one index is a text index. -/
theorem reachable_valid {s : Server} (h : s.Reachable) {name : String} {c : Collection}
    (hc : s.store.get? name = some c) :
    (∀ d ∈ c.documents, ∃ id, d.get? idField = some id) ∧
      (∀ {i j : Nat} {a b : Document} {v w : Value}, i ≠ j → c.documents[i]? = some a →
        c.documents[j]? = some b → a.get? idField = some v → b.get? idField = some w →
          v.equal w = false) ∧
      (∀ spec ∈ c.indexes, spec.isUnique = true → ∀ {i j : Nat} {a b : Document}, i ≠ j →
        c.documents[i]? = some a → c.documents[j]? = some b → Collection.agreesOn spec a b = false) ∧
      (c.indexes.filter IndexSpec.isText).length ≤ 1 := by
  have hvalid := h.valid name c hc
  refine ⟨?_, ?_, ?_, hvalid.textIndexes⟩
  · intro d hd
    exact Option.isSome_iff_exists.1 (hvalid.identified d hd)
  · intro i j a b v w hne ha hb hv hw
    have hid := (Collection.collides_eq_false_iff.1 (hvalid.collides_of_ne hne.symm hb ha)).1
    simpa only [Collection.sameId, hv, hw] using hid
  · intro spec hspec hunique i j a b hne ha hb
    exact (Collection.collides_eq_false_iff.1 (hvalid.collides_of_ne hne ha hb)).2 spec hspec hunique

/-- A unique index is created over one document; the next document is refused for it, and the last,
which has no `_id`, is stored. -/
theorem reachable_valid_after_refusal :
    let calls : List Call :=
      [.insert "notes" ⟨[("_id", .int32 1), ("name", .string "a")], by decide⟩,
        .createIndex "notes" ⟨"byName", [⟨"name", .ascending⟩], true, .standard⟩,
        .insert "notes" ⟨[("_id", .int32 2), ("name", .string "a")], by decide⟩,
        .insert "notes" ⟨[("name", .string "b")], by decide⟩]
    let s := calls.foldl Call.run .empty
    s.Reachable ∧ ∃ c, s.store.get? "notes" = some c ∧ c.documents.length = 2 ∧
      (∀ d ∈ c.documents, ∃ id, d.get? idField = some id) ∧
      (c.indexes.filter IndexSpec.isText).length ≤ 1 := by
  intro calls s
  have hs : s.Reachable := (Reachable.init rfl).calls calls
  have hlength : (s.store.get? "notes").map (fun c => c.documents.length) = some 2 := by decide
  obtain ⟨c, hc, htwo⟩ := Option.map_eq_some_iff.1 hlength
  obtain ⟨hids, -, -, htext⟩ := reachable_valid hs hc
  exact ⟨hs, c, hc, htwo, hids, htext⟩

end Server
end Docbase
