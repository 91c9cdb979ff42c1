/-
What the operations on entities do to the documents of their collection. An
entity is stored under its identifier as it is (`add_ok`), and looked up by its
identifier without the white space around it (`finds`): that tells what is there
(`contains_eq`), what is read (`find?_eq`), what is deleted (`delete_eq`) and
what is replaced (`update_ok`).
-/
import Docbase.Proofs.Entity.Lawful
import Docbase.Proofs.Matching.Equality
import Docbase.Proofs.Repository.Identity
import Docbase.Proofs.Store.Find
import Docbase.Proofs.Text.Trim

namespace Docbase

/-! ## Strings under `_id` -/

theorem Value.equal_string_iff {v : Value} {t : String} : v.equal (.string t) = true ↔ v = .string t := by
  cases v <;> simp [Value.equal]

theorem Operand.equal_string_iff {v : Value} {t : String} :
    (Operand.ofValue v).equal (.string t) = true ↔ v = .string t := by
  cases v <;> simp [Operand.ofValue, Operand.equal]

namespace Collection

/-- A string finds the documents that have it as `_id`, and those whose `_id` is an array that
holds it. -/
theorem foundBy_string_iff {t : String} {d : Document} : foundBy (.string t) d = true ↔
    d.get? idField = some (.string t) ∨
      ∃ items, d.get? idField = some (.array items) ∧ .string t ∈ items := by
  have hlookup : d.lookup? idField = d.get? idField := rfl
  have hstring (v : Value) : Operand.looksEqual v (.string t) ↔ v = .string t := Operand.equal_string_iff
  rw [foundBy, Matching.equals_iff, Document.FieldHas, hlookup]
  simp [hstring, Operand.ofValue, and_or_left, exists_or]

theorem matching_id (c : Collection) (v : Value) :
    c.matching (some (.eq idField v)) = .ok (c.documents.filter (foundBy v)) :=
  matching_of_judge (judge_id c v)

/-- Replacing by `_id` leaves the collection as it is, if no document is found, or puts the
replacement in the place of the first one. -/
theorem replaceOne_id_cases {c c' : Collection} {name : String} {v : Value} {d : Document} {n : Nat}
    (h : c.replaceOne name (.eq idField v) d = .ok (c', n)) :
    (∀ stored ∈ c.documents, foundBy v stored = false) ∧ c' = c ∨
      ∃ before stored after d', c.documents = before ++ stored :: after ∧ foundBy v stored = true ∧
        replacement stored d = .ok d' ∧ c' = { c with documents := before ++ d' :: after } := by
  rw [replaceOne, judge_id] at h
  dsimp only at h
  split at h
  · next hnone =>
    cases h
    exact .inl ⟨by simpa using splitMatch?_eq_none_iff.1 hnone, rfl⟩
  · next before stored after hsplit =>
    obtain ⟨hdocs, hfound, -⟩ := splitMatch?_map_eq_some_iff.1 hsplit
    split at h
    · cases h
    · next d' hreplacement =>
      obtain ⟨-, -, heq⟩ := map_eq_ok_iff.1 h
      cases heq
      exact .inr ⟨before, stored, after, d', hdocs, hfound, hreplacement, rfl⟩

/-- A document with a string as `_id` replaces, as it is, only a document of that `_id`. -/
theorem replacement_string {stored d d' : Document} {id t : String} (hd : d.get? idField = some (.string id))
    (hfound : foundBy (.string t) stored = true) (h : replacement stored d = .ok d') :
    stored.get? idField = some (.string id) ∧ t = id ∧ d' = d := by
  rcases foundBy_string_iff.1 hfound with hstored | ⟨items, hstored, -⟩
  · simp only [replacement, hstored, hd] at h
    split at h
    · next hequal =>
      cases Value.equal_string_iff.1 hequal
      cases h
      exact ⟨hstored, rfl, Fields.insert_of_get? hd⟩
    · cases h
  · simp only [replacement, hstored, hd, Value.equal] at h
    cases h

end Collection

/-! ## Stores -/

namespace Store

variable {s t : Store} {name : String}

theorem insert_eq_ok_iff {d : Document} : s.insert name d = .ok t ↔
    (∀ other ∈ (s.collection name).documents,
        Collection.collides (s.collection name).indexes d other = false) ∧
      t = s.put name
        { s.collection name with documents := (s.collection name).documents ++ [d] } := by
  constructor
  · intro h
    obtain ⟨c, hc, rfl⟩ := map_eq_ok_iff.1 h
    obtain ⟨hunique, rfl⟩ := Collection.insert_eq_ok_iff.1 hc
    exact ⟨hunique, rfl⟩
  · rintro ⟨hunique, rfl⟩
    rw [insert, Collection.insert_eq_ok_iff.2 ⟨hunique, rfl⟩, ok_map]

theorem count_id (s : Store) (name : String) (v : Value) :
    s.count name (some (.eq idField v)) =
      .ok ((s.collection name).documents.filter (Collection.foundBy v)).length := by
  rw [count_eq, Collection.count, Collection.matching_id, ok_map]

/-- What one looks for by `_id` is the first document found. -/
theorem find_id (s : Store) (name : String) (v : Value) :
    s.find name { Query.all with filter := some (.eq idField v), limit := some 1 } =
      .ok ((s.collection name).documents.find? (Collection.foundBy v)).toList := by
  simp only [find_eq, Collection.find, Collection.matching_id, Query.all, Query.window, Collection.arrange,
    Option.getD_none, List.drop_zero, ← List.head?_filter]
  cases (s.collection name).documents.filter (Collection.foundBy v) with
  | nil => rfl
  | cons d ds => rfl

/-- Replacing by `_id` leaves the store as it is, if no document is found, or puts the replacement
in the place of the first one. -/
theorem replaceOne_id_cases {v : Value} {d : Document} {n : Nat}
    (h : s.replaceOne name (.eq idField v) d = .ok (t, n)) :
    (∀ stored ∈ (s.collection name).documents, Collection.foundBy v stored = false) ∧ t = s ∨
      ∃ before stored after d', (s.collection name).documents = before ++ stored :: after ∧
        Collection.foundBy v stored = true ∧ Collection.replacement stored d = .ok d' ∧
        s.Rewritten t name (before ++ d' :: after) := by
  rw [replaceOne, update] at h
  split at h
  · next hnone =>
    cases h
    refine .inl ⟨?_, rfl⟩
    rw [Store.collection, hnone]
    simp [Collection.empty]
  · next c hget =>
    have hc : s.collection name = c := by rw [Store.collection, hget, Option.getD_some]
    obtain ⟨⟨c', m⟩, hreplace, heq⟩ := map_eq_ok_iff.1 h
    cases heq
    rcases Collection.replaceOne_id_cases hreplace with ⟨hnone, rfl⟩ | ⟨before, stored, after, d', hcases⟩
    · exact .inl ⟨by rwa [hc], put_of_get? hget⟩
    · obtain ⟨hdocs, hfound, hreplacement, rfl⟩ := hcases
      refine .inr ⟨before, stored, after, d', by rwa [hc], hfound, hreplacement, ?_⟩
      have hput := s.rewritten_put name (before ++ d' :: after)
      rwa [hc] at hput

end Store

/-! ## Steps that succeed -/

namespace Server

variable {s t : Server}

/-- A document that is inserted, with an identifier if it had none, collides with no other and
stands at the end. -/
theorem insert_ok {c : String} {d : Document} (h : insert c d s = (.ok (), t)) :
    ∃ stored, (d.contains idField = true → stored = d) ∧
      (∀ other ∈ (s.store.collection c).documents,
        Collection.collides (s.store.collection c).indexes stored other = false) ∧
      s.store.Rewritten t.store c ((s.store.collection c).documents ++ [stored]) := by
  rw [insert_eq] at h
  obtain ⟨store, hstore, rfl⟩ := change_eq_ok_iff.1 h
  obtain ⟨store', hinsert, heq⟩ := map_eq_ok_iff.1 hstore
  cases heq
  rw [identified_store] at hinsert
  obtain ⟨hunique, rfl⟩ := Store.insert_eq_ok_iff.1 hinsert
  refine ⟨(s.identified d).1, fun hd => ?_, hunique, s.store.rewritten_put c _⟩
  rw [identified, if_pos hd]

end Server

namespace Binding

variable {α β : Type} {s t : Server}

theorem run_eq_ok_iff {b : Binding} {step : Server.Step α} {a : α} :
    b.run step s = (.ok a, t) ↔ b.bound = true ∧ step s = (.ok a, t) := by
  unfold run
  split
  · next h => simp [h]
  · next h => simp [h]

theorem andThen_eq_ok_iff {first : Server.Step α} {next : α → Server.Step β} {b : β} :
    andThen first next s = (.ok b, t) ↔ ∃ a u, first s = (.ok a, u) ∧ next a u = (.ok b, t) := by
  unfold andThen
  split
  · next heq => simp [heq]
  · next heq => simp [heq]

theorem check_eq_ok_iff {x : Result α} {a : α} : check x s = (.ok a, t) ↔ x = .ok a ∧ s = t := by
  simp [check]

theorem andThen_check_eq_ok_iff {x : Result α} {next : α → Server.Step β} {b : β} :
    andThen (check x) next s = (.ok b, t) ↔ ∃ a, x = .ok a ∧ next a s = (.ok b, t) := by
  simp [andThen_eq_ok_iff, check_eq_ok_iff]

end Binding

/-! ## Repositories -/

/-- The identifier of an entity, empty if it has none. -/
def Entity.idOf {α : Type} [Entity α] (e : α) : String := (Entity.id e).getD ""

namespace Repository

open Binding Entity

variable {α : Type} {r : Repository α} {s t : Server} {id : String}

/-- The documents of a repository. -/
def documents (r : Repository α) (s : Server) : List Document :=
  (s.store.collection r.binding.collection).documents

/-- Whether a document is found by an identifier, of which the white space around it is no part. -/
def finds (id : String) (d : Document) : Bool := Collection.foundBy (.string (Text.trim id)) d

theorem idPredicate_of_blank (h : (Text.trim id).isEmpty = true) :
    idPredicate id = .error (.invalidArgument "id") := by
  rw [idPredicate, if_pos h]

theorem idPredicate_of_not_blank (h : (Text.trim id).isEmpty = false) :
    idPredicate id = .ok (.eq idField (.string (Text.trim id))) := by
  rw [idPredicate, h, if_neg Bool.false_ne_true]

/-- An entity is there if any document is found by its identifier. -/
theorem contains_eq (hbound : r.binding.bound = true) (hid : (Text.trim id).isEmpty = false) :
    r.contains id s = (.ok ((r.documents s).any (finds id)), s) := by
  refine run_eq_ok_iff.2 ⟨hbound, andThen_check_eq_ok_iff.2 ⟨_, idPredicate_of_not_blank hid, ?_⟩⟩
  refine andThen_eq_ok_iff.2 ⟨((r.documents s).filter (finds id)).length, s, ?_, ?_⟩
  · rw [Server.count, Server.ask, Store.count_id]
    rfl
  · refine check_eq_ok_iff.2 ⟨congrArg Except.ok ?_, rfl⟩
    rw [Bool.eq_iff_iff, decide_eq_true_iff, List.any_eq_true, List.length_pos_iff_exists_mem]
    simp only [List.mem_filter]

theorem contains_blank (hid : (Text.trim id).isEmpty = true) (b : Bool) :
    r.contains id s ≠ (.ok b, t) := by
  intro h
  obtain ⟨-, h⟩ := run_eq_ok_iff.1 h
  obtain ⟨p, hp, -⟩ := andThen_check_eq_ok_iff.1 h
  rw [idPredicate_of_blank hid] at hp
  cases hp

variable [Entity α] {e e' : α}

theorem ensureStringId_eq_ok_iff {u : Unit} : ensureStringId α = .ok u ↔ keepsStringId α = true := by
  unfold ensureStringId
  split
  · next h => simp [h]
  · next h => simp [h]

/-- An entity without an identifier has the blank one. -/
theorem id_of_not_blank (h : (Text.trim (idOf e)).isEmpty = false) : Entity.id e = some (idOf e) := by
  cases hid : Entity.id e with
  | none =>
    rw [idOf, hid] at h
    exact absurd h (by decide)
  | some id => rw [idOf, hid, Option.getD_some]

theorem persistedId_eq_ok_iff : persistedId e = .ok id ↔
    (Text.trim (idOf e)).isEmpty = false ∧ Text.trim (idOf e) = id := by
  unfold persistedId idOf
  dsimp only
  split
  · next h => simp [h]
  · next h => simp [h]

/-- An entity that is added is stored at the end, with an identifier if it had none. -/
theorem add_ok (h : r.add e s = (.ok e', t)) :
    r.binding.bound = true ∧ keepsStringId α = true ∧ setTracker (identified e s).1 .unchanged = e' ∧
      ∃ d stored, encode (identified e s).1 = .ok d ∧ (d.contains idField = true → stored = d) ∧
        (∀ other ∈ r.documents s,
          Collection.collides (s.store.collection r.binding.collection).indexes stored other = false) ∧
        s.store.Rewritten t.store r.binding.collection (r.documents s ++ [stored]) := by
  obtain ⟨hbound, h⟩ := run_eq_ok_iff.1 h
  obtain ⟨_, hkeeps, h⟩ := andThen_check_eq_ok_iff.1 h
  have h : andThen (check (encode (identified e s).1))
      (fun d => andThen (Server.insert r.binding.collection d)
        fun _ => check (.ok (setTracker (identified e s).1 .unchanged)))
      (identified e s).2 = (.ok e', t) := h
  obtain ⟨d, hencode, h⟩ := andThen_check_eq_ok_iff.1 h
  obtain ⟨_, u, hinsert, h⟩ := andThen_eq_ok_iff.1 h
  obtain ⟨he', rfl⟩ := check_eq_ok_iff.1 h
  obtain ⟨stored, hstored, hunique, hrewritten⟩ := Server.insert_ok hinsert
  rw [identified_store] at hunique hrewritten
  exact ⟨hbound, ensureStringId_eq_ok_iff.1 hkeeps, Except.ok.inj he', d, stored, hencode, hstored, hunique,
    hrewritten⟩

/-- An entity that is updated is written in the place of the first document found, or nowhere. -/
theorem update_ok (h : r.update e s = (.ok e', t)) :
    (Text.trim (idOf e)).isEmpty = false ∧ setTracker e .unchanged = e' ∧ ∃ d, encode e = .ok d ∧
      ((∀ stored ∈ r.documents s, finds (idOf e) stored = false) ∧ t = s ∨
        ∃ before stored after d', r.documents s = before ++ stored :: after ∧ finds (idOf e) stored = true ∧
          Collection.replacement stored d = .ok d' ∧
          s.store.Rewritten t.store r.binding.collection (before ++ d' :: after)) := by
  obtain ⟨-, h⟩ := run_eq_ok_iff.1 h
  obtain ⟨_, -, h⟩ := andThen_check_eq_ok_iff.1 h
  obtain ⟨id, hid, h⟩ := andThen_check_eq_ok_iff.1 h
  obtain ⟨d, hencode, h⟩ := andThen_check_eq_ok_iff.1 h
  obtain ⟨n, u, hreplace, h⟩ := andThen_eq_ok_iff.1 h
  obtain ⟨he', rfl⟩ := check_eq_ok_iff.1 h
  obtain ⟨hblank, rfl⟩ := persistedId_eq_ok_iff.1 hid
  obtain ⟨store, hstore, rfl⟩ := Server.change_eq_ok_iff.1 hreplace
  refine ⟨hblank, Except.ok.inj he', d, hencode, ?_⟩
  rcases Store.replaceOne_id_cases hstore with ⟨hnone, rfl⟩ | hfound
  · exact .inl ⟨hnone, rfl⟩
  · exact .inr hfound

/-- Deleting an entity removes the first document found by its identifier. -/
theorem delete_eq (hbound : r.binding.bound = true) (hkeeps : keepsStringId α = true)
    (hid : (Text.trim (idOf e)).isEmpty = false) :
    ∃ t, r.delete e s = (.ok e, t) ∧ s.store.Rewritten t.store r.binding.collection
      ((r.documents s).eraseP (finds (idOf e))) := by
  obtain ⟨store, n, hdelete, hrewritten⟩ :=
    s.store.deleteOne_id r.binding.collection (.string (Text.trim (idOf e)))
  refine ⟨{ s with store }, ?_, hrewritten⟩
  refine run_eq_ok_iff.2 ⟨hbound, andThen_check_eq_ok_iff.2 ⟨(), ensureStringId_eq_ok_iff.2 hkeeps, ?_⟩⟩
  refine andThen_check_eq_ok_iff.2 ⟨_, persistedId_eq_ok_iff.2 ⟨hid, rfl⟩, ?_⟩
  refine andThen_eq_ok_iff.2 ⟨n, _, Server.change_eq_ok_iff.2 ⟨store, hdelete, rfl⟩, rfl⟩

/-- Looking up an identifier reads the first document found by it. -/
theorem find?_eq (hbound : r.binding.bound = true) (hid : (Text.trim id).isEmpty = false) {stored : Document}
    (hfirst : (r.documents s).find? (finds id) = some stored) :
    r.find? id s = ((ofDocument stored).map some, s) := by
  have hfind := s.store.find_id r.binding.collection (.string (Text.trim id))
  have hstored : (s.store.collection r.binding.collection).documents.find?
      (Collection.foundBy (.string (Text.trim id))) = some stored := hfirst
  rw [hstored] at hfind
  simp only [Repository.find?, Binding.run, hbound, if_true, Binding.andThen, Binding.check,
    idPredicate_of_not_blank hid, Server.find, Server.ask, hfind, Option.toList_some]

/-- The repository of slots over their own collection. -/
def slots : Repository Slot := (named Slot none).bind

end Repository
end Docbase
