/-
Writes as they go through a store, change by change. Inserting a document and
creating an index bring the collection into being before they check anything;
documents are replaced and removed by position, and a new index is added after
those of its name are gone. A check that refuses takes nothing back: the store
stays as it is at that moment.

Each of them is the write that a server carries out as one step (`insertInPlace_eq`
and its siblings). What that rests on: a collection that has just been brought into
being holds no document and no index that could refuse anything, and no check comes
after the documents or indexes of a collection have been changed.
-/
import Docbase.Proofs.Store.Reachable

namespace Docbase

namespace Collection

/-! ## Positions -/

/-- The positions of the documents that satisfied a predicate, the first document being at `i`. -/
def positions (i : Nat) : List (Document × Bool) → List Nat
  | [] => []
  | (_, answer) :: rest => if answer then i :: positions (i + 1) rest else positions (i + 1) rest

/-- Documents without those at the given positions; the last one is removed first. -/
def removeAt (ds : List Document) (is : List Nat) : List Document := is.foldr (fun i ds => ds.eraseIdx i) ds

theorem positions_eq_nil {judged : List (Document × Bool)} (h : splitMatch? judged = none) (i : Nat) :
    positions i judged = [] := by
  induction judged generalizing i with
  | nil => rfl
  | cons j judged ih =>
    obtain ⟨d, answer⟩ := j
    cases answer with
    | true => cases h
    | false =>
      rw [splitMatch?, Option.map_eq_none_iff] at h
      simpa [positions] using ih h (i + 1)

theorem positions_eq_cons {judged : List (Document × Bool)} {before after : List Document} {found : Document}
    (h : splitMatch? judged = some (before, found, after)) (i : Nat) :
    ∃ is, positions i judged = (i + before.length) :: is := by
  induction judged generalizing i before with
  | nil => cases h
  | cons j judged ih =>
    obtain ⟨d, answer⟩ := j
    cases answer with
    | true =>
      cases h
      exact ⟨_, rfl⟩
    | false =>
      rw [splitMatch?, Option.map_eq_some_iff] at h
      obtain ⟨⟨before, found, after⟩, hsplit, heq⟩ := h
      cases heq
      obtain ⟨is, his⟩ := ih hsplit (i + 1)
      refine ⟨is, ?_⟩
      rw [List.length_cons, ← Nat.add_assoc, Nat.add_right_comm]
      simpa [positions] using his

/-- The position of the first match. -/
theorem positions_of_splitMatch? {c : Collection} {p : Option Predicate} {judged : List (Document × Bool)}
    {before after : List Document} {found : Document} (hjudge : c.judge p = .ok judged)
    (hsplit : splitMatch? judged = some (before, found, after)) :
    (∃ is, positions 0 judged = before.length :: is) ∧ c.documents.getD before.length [] = found ∧
      c.documents.eraseIdx before.length = before ++ after := by
  have hdocs := splitMatch?_documents hjudge hsplit
  have hfirst := positions_eq_cons hsplit 0
  rw [Nat.zero_add] at hfirst
  exact ⟨hfirst, by simp [hdocs], by simp [hdocs, List.eraseIdx_append_of_length_le]⟩

theorem length_positions (judged : List (Document × Bool)) (i : Nat) :
    (positions i judged).length = (judged.filter Prod.snd).length := by
  induction judged generalizing i with
  | nil => rfl
  | cons j judged ih =>
    obtain ⟨d, answer⟩ := j
    cases answer with
    | true => simp [positions, ih]
    | false => simp [positions, ih]

/-- Removing the matches one by one leaves the documents that are none. The documents before them
stay where they are, so no position is off. -/
theorem removeAt_positions (before : List Document) (judged : List (Document × Bool)) :
    removeAt (before ++ judged.map Prod.fst) (positions before.length judged) =
      before ++ (judged.filter fun j => !j.2).map Prod.fst := by
  induction judged generalizing before with
  | nil => rfl
  | cons j judged ih =>
    obtain ⟨d, answer⟩ := j
    have hrest := ih (before ++ [d])
    rw [List.append_assoc, List.length_append, List.length_singleton] at hrest
    cases answer with
    | true =>
      rw [positions, if_pos rfl, removeAt, List.foldr_cons, ← removeAt, List.map_cons]
      rw [List.singleton_append] at hrest
      rw [hrest, List.append_assoc, List.eraseIdx_append_of_length_le (Nat.le_refl _), Nat.sub_self]
      simp
    | false =>
      rw [positions, if_neg Bool.false_ne_true, List.map_cons]
      rw [List.singleton_append] at hrest
      rw [hrest, List.append_assoc]
      simp

end Collection

namespace Store

open Collection

/-- A write as it goes: what it answers, and the store as it then stands in either case. -/
abbrev Edit (α : Type) := Store → Result α × Store

/-- A write of which nothing is seen unless it succeeds. -/
def Edit.whole {α : Type} (f : Store → Result (Store × α)) : Edit α := fun s =>
  match f s with
  | .error e => (.error e, s)
  | .ok (t, a) => (.ok a, t)

/-- The store with a collection of the name; if there was none, it is empty. -/
def opened (s : Store) (name : String) : Store :=
  match s.get? name with
  | some _ => s
  | none => s.put name .empty

def insertInPlace (name : String) (d : Document) : Edit Unit := fun s =>
  let s := s.opened name
  let c := s.collection name
  match checkUnique name c.indexes d c.documents with
  | .error e => (.error e, s)
  | .ok _ => (.ok (), s.put name { c with documents := c.documents ++ [d] })

def replaceInPlace (name : String) (p : Predicate) (d : Document) : Edit Nat := fun s =>
  match s.get? name with
  | none => (.ok 0, s)
  | some c =>
    match c.judge (some p) with
    | .error e => (.error e, s)
    | .ok judged =>
      match positions 0 judged with
      | [] => (.ok 0, s)
      | i :: _ =>
        match replacement (c.documents.getD i []) d with
        | .error e => (.error e, s)
        | .ok d =>
          match checkUnique name c.indexes d (c.documents.eraseIdx i) with
          | .error e => (.error e, s)
          | .ok _ => (.ok 1, s.put name { c with documents := c.documents.set i d })

def deleteOneInPlace (name : String) (p : Predicate) : Edit Nat := fun s =>
  match s.get? name with
  | none => (.ok 0, s)
  | some c =>
    match c.judge (some p) with
    | .error e => (.error e, s)
    | .ok judged =>
      match positions 0 judged with
      | [] => (.ok 0, s)
      | i :: _ => (.ok 1, s.put name { c with documents := c.documents.eraseIdx i })

def deleteManyInPlace (name : String) (p : Option Predicate) : Edit Nat := fun s =>
  match s.get? name with
  | none => (.ok 0, s)
  | some c =>
    match c.judge p with
    | .error e => (.error e, s)
    | .ok judged =>
      let is := positions 0 judged
      (.ok is.length, s.put name { c with documents := removeAt c.documents is })

def createIndexInPlace (name : String) (spec : IndexSpec) : Edit Unit := fun s =>
  let s := s.opened name
  let c := s.collection name
  if spec.isText && c.indexes.any fun other => other.isText && other.name ≠ spec.name then
    (.error (.store (.secondTextIndex name)), s)
  else
    match if spec.isUnique then checkDistinct name spec [] c.documents else .ok () with
    | .error e => (.error e, s)
    | .ok _ =>
      let c := { c with indexes := c.indexes.filter fun other => other.name ≠ spec.name }
      let s := s.put name c
      (.ok (), s.put name { c with indexes := c.indexes ++ [spec] })

/-! ## Collections brought into being -/

theorem collection_opened (s : Store) (name : String) : (s.opened name).collection name = s.collection name := by
  unfold opened
  cases hget : s.get? name with
  | some c => rfl
  | none =>
    rw [collection, get?, put, Fields.get?_insert_self, Option.getD_some, collection, hget, Option.getD_none]

theorem put_put (s : Store) (name : String) (c c' : Collection) : (s.put name c).put name c' = s.put name c' := by
  rw [put, put, put, Fields.insert_insert_self]

theorem put_opened (s : Store) (name : String) (c : Collection) : (s.opened name).put name c = s.put name c := by
  unfold opened
  cases s.get? name with
  | some _ => rfl
  | none => exact s.put_put name .empty c

/-- A write that is refused finds its collection in being. -/
theorem opened_of_ne_empty {s : Store} {name : String} (h : s.collection name ≠ .empty) : s.opened name = s := by
  unfold opened
  cases hget : s.get? name with
  | some _ => rfl
  | none =>
    rw [collection, hget] at h
    exact absurd rfl h

/-- A check that an empty collection passes refuses only in a collection that is in being. -/
theorem opened_of_error {ε α : Type} {s : Store} {name : String} {f : Collection → Except ε α} {a : α} {e : ε}
    (hempty : f .empty = .ok a) (h : f (s.collection name) = .error e) : s.opened name = s := by
  refine opened_of_ne_empty fun hcollection => ?_
  rw [hcollection, hempty] at h
  cases h

/-! ## The writes as single steps -/

theorem insertInPlace_eq (name : String) (d : Document) :
    insertInPlace name d = Edit.whole fun s => (s.insert name d).map fun t => (t, ()) := by
  funext s
  rw [insertInPlace, collection_opened, Edit.whole, insert, Collection.insert]
  cases hcheck : checkUnique name (s.collection name).indexes d (s.collection name).documents with
  | ok _ => simp only [ok_map, put_opened]
  | error e =>
    have hopened := opened_of_error (f := fun c => checkUnique name c.indexes d c.documents) rfl hcheck
    simp only [error_map, hopened]

theorem replaceInPlace_eq (name : String) (p : Predicate) (d : Document) :
    replaceInPlace name p d = Edit.whole fun s => s.replaceOne name p d := by
  funext s
  rw [replaceInPlace, Edit.whole, replaceOne, update]
  cases hget : s.get? name with
  | none => rfl
  | some c =>
    simp only [Collection.replaceOne]
    cases hjudge : c.judge (some p) with
    | error e => rfl
    | ok judged =>
      cases hsplit : splitMatch? judged with
      | none => simp only [positions_eq_nil hsplit, hsplit, ok_map, put_of_get? hget]
      | some found =>
        obtain ⟨before, stored, after⟩ := found
        obtain ⟨⟨is, his⟩, hstored, hothers⟩ := positions_of_splitMatch? hjudge hsplit
        simp only [his, hsplit, hstored]
        cases replacement stored d with
        | error e => rfl
        | ok d' =>
          have hset : c.documents.set before.length d' = before ++ d' :: after := by
            simp [splitMatch?_documents hjudge hsplit]
          simp only [hothers, hset]
          cases checkUnique name c.indexes d' (before ++ after) with
          | error e => rfl
          | ok _ => rfl

theorem deleteOneInPlace_eq (name : String) (p : Predicate) :
    deleteOneInPlace name p = Edit.whole fun s => s.deleteOne name p := by
  funext s
  rw [deleteOneInPlace, Edit.whole, deleteOne, update]
  cases hget : s.get? name with
  | none => rfl
  | some c =>
    simp only [Collection.deleteOne]
    cases hjudge : c.judge (some p) with
    | error e => rfl
    | ok judged =>
      cases hsplit : splitMatch? judged with
      | none => simp only [positions_eq_nil hsplit, hsplit, ok_map, put_of_get? hget]
      | some found =>
        obtain ⟨before, stored, after⟩ := found
        obtain ⟨⟨is, his⟩, -, hothers⟩ := positions_of_splitMatch? hjudge hsplit
        simp only [his, hsplit, hothers, ok_map]

theorem deleteManyInPlace_eq (name : String) (p : Option Predicate) :
    deleteManyInPlace name p = Edit.whole fun s => s.deleteMany name p := by
  funext s
  rw [deleteManyInPlace, Edit.whole, deleteMany, update]
  cases hget : s.get? name with
  | none => rfl
  | some c =>
    simp only [Collection.deleteMany]
    cases hjudge : c.judge p with
    | error e => rfl
    | ok judged =>
      have hremoved := removeAt_positions [] judged
      rw [List.nil_append, List.nil_append, judge_documents hjudge] at hremoved
      simp only [length_positions, ← hremoved, List.length_nil, ok_map]

/-- An index is created in a collection whether or not that exists, and refused only in one that does. -/
theorem createIndexInPlace_eq (name : String) (spec : IndexSpec) :
    createIndexInPlace name spec = Edit.whole fun s => (s.createIndex name spec).map fun t => (t, ()) := by
  funext s
  rw [createIndexInPlace, collection_opened, Edit.whole, createIndex, Collection.createIndex]
  dsimp only
  split
  · next htext =>
    have hindexes : s.collection name ≠ .empty := by
      intro hempty
      rw [hempty, Bool.and_eq_true] at htext
      cases htext.2
    simp only [error_map, opened_of_ne_empty hindexes]
  · by_cases hunique : spec.isUnique = true
    · rw [if_pos hunique, if_pos hunique]
      cases hcheck : checkDistinct name spec [] (s.collection name).documents with
      | ok _ => simp only [ok_map, put_put, put_opened]
      | error e =>
        have hopened := opened_of_error (f := fun c => checkDistinct name spec [] c.documents) rfl hcheck
        simp only [error_map, hopened]
    · rw [if_neg hunique, if_neg hunique]
      simp only [ok_map, put_put, put_opened]

end Store

namespace Server

/-- A server carries out a write on its store as it goes. -/
def edit {α : Type} (f : Store.Edit α) : Step α := fun s =>
  let (answer, store) := f s.store
  (answer, { s with store })

theorem edit_whole {α : Type} (f : Store → Result (Store × α)) : edit (Store.Edit.whole f) = change f := by
  funext s
  rw [edit, Store.Edit.whole, change]
  cases f s.store with
  | error e => rfl
  | ok p => rfl

/-- Inserts as it goes a document that has been given an identifier. -/
def insertInPlace (c : String) (d : Document) : Step Unit := fun s =>
  let (d, s) := s.identified d
  edit (Store.insertInPlace c d) s

theorem insertInPlace_eq (c : String) (d : Document) : insertInPlace c d = insert c d := by
  funext s
  simp only [insertInPlace, Store.insertInPlace_eq, edit_whole]
  rfl

end Server
end Docbase
