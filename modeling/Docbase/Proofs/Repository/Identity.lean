/-
Which document a repository of documents deletes and updates.

A document is stored under its `_id` by equality of values, and addressed by the
equality of comparisons, which is looser (`foundBy_of_sameId`): the integer 1
finds the wide integer 1, and any value finds an array that holds it. So the
first document that is found need not be the one of that `_id`.

`delete_update_iff`: deleting and updating address the document of the same `_id`
exactly where the first document found is that one.
`delete_another_document` is a store in which it is not.
-/
import Docbase.Proofs.Repository.Reachable
import Docbase.Proofs.Store.Verdict

namespace Docbase

namespace Collection

/-! ## Documents under an `_id` -/

theorem sameId_trans {a b c : Document} (hab : sameId a b = true) (hbc : sameId b c = true) :
    sameId a c = true := by
  unfold sameId at hab hbc ⊢
  split at hab
  · next hva hvb =>
    split at hbc
    · next hvb' hvc =>
      cases hvb.symm.trans hvb'
      rw [hva, hvc]
      exact Value.equal_trans hab hbc
    · cases hbc
  · cases hab

/-- In a valid collection, at most one document has the `_id` of another document. -/
theorem Valid.sameId_pairwise {c : Collection} (h : c.Valid) (d : Document) :
    c.documents.Pairwise fun a b => ¬(sameId a d = true ∧ sameId b d = true) := by
  refine h.apart.imp_of_mem fun {a b} ha hb hab hboth => ?_
  have hid := (collides_eq_false_iff.1 hab).1
  rw [sameId_trans hboth.2 (sameId_symm (h.wellKeyed a ha) hboth.1)] at hid
  cases hid

/-- Whether the document is found by a value of `_id`. -/
def foundBy (v : Value) (d : Document) : Bool :=
  Matching.equals (d.operand? idField) (Operand.ofValue v)

theorem operand?_idField (d : Document) :
    d.operand? idField = (d.get? idField).map Operand.ofValue := by
  have hpath : fieldPath idField = [idField] := by decide
  rw [Document.operand?, Document.lookup?, hpath]
  rfl

/-- A document is found by its own `_id`. -/
theorem foundBy_of_sameId {d other : Document} {v : Value} (hv : d.get? idField = some v)
    (h : sameId other d = true) : foundBy v other = true := by
  unfold sameId at h
  split at h
  · next w _ hw hv' =>
    cases hv.symm.trans hv'
    have hlooks := Operand.looksEqual_of_equal h
    rw [Operand.looksEqual] at hlooks
    rw [foundBy, operand?_idField, hw, Option.map_some]
    simp only [Matching.equals, hlooks, Bool.true_or]
  · cases h

theorem judge_id (c : Collection) (v : Value) :
    c.judge (some (.eq idField v)) = .ok (c.documents.map fun d => (d, foundBy v d)) :=
  judge_of_verdicts fun _ _ => rfl

/-- Deleting by `_id` removes the first document found. -/
theorem deleteOne_id (c : Collection) (v : Value) :
    ∃ n, c.deleteOne (.eq idField v) =
      .ok ({ c with documents := c.documents.eraseP (foundBy v) }, n) := by
  rw [Collection.deleteOne, judge_id, ok_map]
  split
  · next hnone =>
    have hkept : c.documents.eraseP (foundBy v) = c.documents := by
      rw [List.eraseP_eq_self_iff]
      simpa using splitMatch?_eq_none_iff.1 hnone
    exact ⟨0, by rw [hkept]⟩
  · next before found after hsplit =>
    obtain ⟨hdocs, hfound, hbefore⟩ := splitMatch?_map_eq_some_iff.1 hsplit
    have herased : c.documents.eraseP (foundBy v) = before ++ after := by
      rw [hdocs, List.eraseP_append_right _ (by simpa using hbefore), List.eraseP_cons_of_pos hfound]
    exact ⟨1, by rw [herased]⟩

/-- Where the first document found has another `_id`, replacing by `_id` is refused. -/
theorem replaceOne_id_refused {c : Collection} (h : c.Valid) (name : String) {d other : Document} {v : Value}
    (hd : Document.wellKeyed d = true) (hv : d.get? idField = some v)
    (hother : c.documents.find? (foundBy v) = some other) (hne : sameId other d = false) :
    c.replaceOne name (.eq idField v) d = .error (.store .idChanged) := by
  obtain ⟨hfound, before, after, hdocs, hbefore⟩ := List.find?_eq_some_iff_append.1 hother
  have hsplit : splitMatch? (c.documents.map fun d => (d, foundBy v d)) = some (before, other, after) :=
    splitMatch?_map_eq_some_iff.2 ⟨hdocs, hfound, by simpa using hbefore⟩
  have hmem : other ∈ c.documents := by simp [hdocs]
  obtain ⟨id, hid⟩ := Option.isSome_iff_exists.1 (h.identified other hmem)
  have hequal : v.equal id = false := by
    rw [← Bool.not_eq_true]
    intro hequal
    have hkeyed := Value.wellKeyed_of_get? (h.wellKeyed other hmem) hid
    simp only [sameId, hid, hv, Value.equal_symm (Value.wellKeyed_of_get? hd hv) hequal] at hne
    cases hne
  simp only [Collection.replaceOne, judge_id, hsplit, replacement, hid, hv, hequal, Bool.false_eq_true,
    if_false]

/-- Where the first document found has the `_id`, it is replaced, if no unique index refuses. -/
theorem replaceOne_id_stored {c : Collection} (h : c.Valid) (name : String) {d stored : Document}
    {v id : Value} {before after : List Document} (hv : d.get? idField = some v)
    (hdocs : c.documents = before ++ stored :: after) (hsame : sameId stored d = true)
    (hid : stored.get? idField = some id) (hfirst : ∀ x, c.documents.find? (foundBy v) = some x → sameId x d = true)
    (hunique : ∀ other ∈ before ++ after, ∀ spec ∈ c.indexes, spec.isUnique = true →
      agreesOn spec (d.insert idField id) other = false) :
    c.replaceOne name (.eq idField v) d =
      .ok ({ c with documents := before ++ d.insert idField id :: after }, 1) := by
  have hbefore : ∀ x ∈ before, foundBy v x = false := by
    intro x hx
    rw [← Bool.not_eq_true]
    intro hfound
    obtain ⟨y, hy⟩ := Option.isSome_iff_exists.1 (List.find?_isSome.2 ⟨x, hx, hfound⟩)
    have hfind : c.documents.find? (foundBy v) = some y := by
      rw [hdocs, List.find?_append, hy, Option.some_or]
    have hpairwise := h.sameId_pairwise d
    rw [hdocs] at hpairwise
    exact (List.pairwise_append.1 hpairwise).2.2 y (List.mem_of_find?_eq_some hy) stored
      List.mem_cons_self ⟨hfirst y hfind, hsame⟩
  have hsplit : splitMatch? (c.documents.map fun d => (d, foundBy v d)) = some (before, stored, after) :=
    splitMatch?_map_eq_some_iff.2 ⟨hdocs, foundBy_of_sameId hv hsame, hbefore⟩
  have hmem : stored ∈ c.documents := by simp [hdocs]
  have hequal : v.equal id = true := by
    have hsymm := sameId_symm (h.wellKeyed stored hmem) hsame
    simpa only [sameId, hid, hv] using hsymm
  have hcheck : checkUnique name c.indexes (d.insert idField id) (before ++ after) = .ok () := by
    refine checkUnique_eq_ok_iff.2 fun other hother => collides_eq_false_iff.2 ⟨?_, hunique other hother⟩
    have hapart := (collides_eq_false_iff.1 (h.collides_around hdocs other hother)).1
    simpa only [sameId, hid, Fields.get?_insert_self] using hapart
  simp only [Collection.replaceOne, judge_id, hsplit, replacement, hid, hv, hequal, if_true, hcheck, ok_map]

end Collection

/-- Removing the first element that satisfies `p` removes the only one that satisfies `q`, and with
it all that satisfy `q`, iff that first element satisfies `q`. -/
theorem eraseP_eq_filter_iff {α : Type} {p q : α → Bool} {xs : List α}
    (hqp : ∀ x ∈ xs, q x = true → p x = true) (hunique : xs.Pairwise fun x y => ¬(q x = true ∧ q y = true)) :
    xs.eraseP p = xs.filter (fun x => !q x) ↔ ∀ x, xs.find? p = some x → q x = true := by
  induction xs with
  | nil => simp
  | cons x xs ih =>
    obtain ⟨hx, hxs⟩ := List.pairwise_cons.1 hunique
    by_cases hp : p x = true
    · rw [List.eraseP_cons_of_pos hp, List.find?_cons_of_pos hp]
      by_cases hq : q x = true
      · have hrest : xs.filter (fun y => !q y) = xs := by
          refine List.filter_eq_self.2 fun y hy => ?_
          simpa using fun hqy => hx y hy ⟨hq, hqy⟩
        simp [hq, hrest]
      · have hne : xs ≠ x :: xs.filter (fun y => !q y) := by
          -- If they were equal, no element of `xs` would satisfy `q`, so none would be filtered out.
          intro heq
          have hnone : ∀ y ∈ xs, (!q y) = true := by
            intro y hy
            rw [heq] at hy
            rcases List.mem_cons.1 hy with rfl | hy
            · simpa using hq
            · exact (List.mem_filter.1 hy).2
          rw [List.filter_eq_self.2 hnone] at heq
          exact absurd (congrArg List.length heq) (by simp)
        simp [hq, hne]
    · have hq : ¬q x = true := fun hq => hp (hqp x List.mem_cons_self hq)
      rw [List.eraseP_cons_of_neg hp, List.find?_cons_of_neg hp]
      simp only [List.filter_cons, hq, Bool.not_false, if_true, List.cons.injEq, true_and]
      exact ih (fun y hy => hqp y (List.mem_cons_of_mem _ hy)) hxs

/-! ## Repositories -/

namespace Store

/-- Deleting by `_id` removes the first document found. -/
theorem deleteOne_id (s : Store) (name : String) (v : Value) :
    ∃ t n, s.deleteOne name (.eq idField v) = .ok (t, n) ∧
      s.Rewritten t name ((s.collection name).documents.eraseP (Collection.foundBy v)) := by
  obtain ⟨n, hdelete⟩ := (s.collection name).deleteOne_id v
  obtain ⟨t, ht, hrewritten⟩ : ∃ t, s.deleteOne name (.eq idField v) = .ok (t, n) ∧ s.Rewritten t name _ :=
    update_of_ok rfl hdelete
  exact ⟨t, n, ht, hrewritten⟩

end Store

namespace DocumentRepository

variable {r : DocumentRepository} {d : Document} {v : Value} {s : Server}

theorem delete_eq (hr : r.binding.bound = true) (hv : d.get? idField = some v) :
    r.delete d s = Binding.andThen (Server.deleteOne r.binding.collection (.eq idField v))
      (fun _ => Binding.check (.ok d)) s := by
  simp only [delete, Binding.run, hr, if_true, Binding.andThen, Binding.check, idPredicate, hv]

theorem update_eq (hr : r.binding.bound = true) (hv : d.get? idField = some v) :
    r.update d s = Binding.andThen (Server.replaceOne r.binding.collection (.eq idField v) d)
      (fun _ => Binding.check (.ok d)) s := by
  simp only [update, Binding.run, hr, if_true, Binding.andThen, Binding.check, idPredicate, hv]

/-- Whether the first document found by `v`, the `_id` of `d`, is the one of that `_id`, if any is
found at all. -/
def findsSameId (c : Collection) (d : Document) (v : Value) : Bool :=
  (c.documents.find? (Collection.foundBy v)).all fun stored => Collection.sameId stored d

/-- Deleting removes the first document found. -/
theorem delete_rewrites (hr : r.binding.bound = true) (hv : d.get? idField = some v) :
    (r.delete d s).1 = .ok d ∧ s.store.Rewritten (r.delete d s).2.store r.binding.collection
      ((s.store.collection r.binding.collection).documents.eraseP (Collection.foundBy v)) := by
  obtain ⟨t, n, hdelete, hrewritten⟩ := s.store.deleteOne_id r.binding.collection v
  rw [delete_eq hr hv]
  simp only [Server.deleteOne, Server.change, Binding.andThen, Binding.check, hdelete]
  exact ⟨trivial, hrewritten⟩

theorem update_rewrites (hr : r.binding.bound = true) (hv : d.get? idField = some v) {ds : List Document}
    {n : Nat}
    (hreplace : (s.store.collection r.binding.collection).replaceOne r.binding.collection (.eq idField v) d =
      .ok ({ s.store.collection r.binding.collection with documents := ds }, n)) :
    (r.update d s).1 = .ok d ∧
      s.store.Rewritten (r.update d s).2.store r.binding.collection ds := by
  obtain ⟨t, hupdate, hrewritten⟩ : ∃ t,
      s.store.replaceOne r.binding.collection (.eq idField v) d = .ok (t, n) ∧
        s.store.Rewritten t r.binding.collection ds := Store.update_of_ok rfl hreplace
  rw [update_eq hr hv]
  simp only [Server.replaceOne, Server.change, Binding.andThen, Binding.check, hupdate]
  exact ⟨trivial, hrewritten⟩

theorem update_refused (hr : r.binding.bound = true) (hv : d.get? idField = some v) {c : Collection}
    {e : Error} (hget : s.store.get? r.binding.collection = some c)
    (hreplace : c.replaceOne r.binding.collection (.eq idField v) d = .error e) :
    r.update d s = (.error e, s) := by
  have hupdate : s.store.replaceOne r.binding.collection (.eq idField v) d = .error e := by
    simp only [Store.replaceOne, Store.update, hget, hreplace, error_map]
  rw [update_eq hr hv]
  simp only [Server.replaceOne, Server.change, Binding.andThen, hupdate]

/-- A stored document is replaced in its place iff the first document found is that one. -/
theorem update_iff (hs : s.Reachable) (hr : r.binding.bound = true) (hd : Document.wellKeyed d = true)
    (hv : d.get? idField = some v) {before after : List Document} {stored : Document} {id : Value}
    (hdocs : (s.store.collection r.binding.collection).documents = before ++ stored :: after)
    (hsame : Collection.sameId stored d = true) (hid : stored.get? idField = some id)
    (hunique : ∀ other ∈ before ++ after, ∀ spec ∈ (s.store.collection r.binding.collection).indexes,
      spec.isUnique = true → Collection.agreesOn spec (d.insert idField id) other = false) :
    (r.update d s).1 = .ok d ∧ s.store.Rewritten (r.update d s).2.store r.binding.collection
        (before ++ d.insert idField id :: after) ↔
      findsSameId (s.store.collection r.binding.collection) d v = true := by
  rw [findsSameId, Option.all_eq_true]
  have hvalid := hs.valid.collection r.binding.collection
  obtain ⟨c, hget⟩ : ∃ c, s.store.get? r.binding.collection = some c := by
    cases hget : s.store.get? r.binding.collection with
    | some c => exact ⟨c, rfl⟩
    | none =>
      rw [Store.collection, hget] at hdocs
      simp [Collection.empty] at hdocs
  have hc : s.store.collection r.binding.collection = c := by
    rw [Store.collection, hget, Option.getD_some]
  constructor
  · rintro ⟨hok, -⟩ other hother
    by_contra hne
    rw [Bool.not_eq_true] at hne
    have hrefused := Collection.replaceOne_id_refused hvalid r.binding.collection hd hv hother hne
    rw [hc] at hrefused
    rw [update_refused hr hv hget hrefused] at hok
    cases hok
  · intro hfirst
    have hstored := Collection.replaceOne_id_stored hvalid r.binding.collection hv hdocs hsame hid
      hfirst hunique
    exact update_rewrites hr hv hstored

/-- **Deleting and updating address the document of the same `_id` iff the first document found is
that one.** Deleting never fails; then all documents but that one are left, of which there is at
most one. Where it is stored, and no unique index refuses the replacement, updating puts it in its
place. -/
theorem delete_update_iff (hs : s.Reachable) (hr : r.binding.bound = true)
    (hd : Document.wellKeyed d = true) (hv : d.get? idField = some v) :
    let c := s.store.collection r.binding.collection
    (r.delete d s).1 = .ok d ∧
      (c.documents.filter fun stored => Collection.sameId stored d).length ≤ 1 ∧
      (s.store.Rewritten (r.delete d s).2.store r.binding.collection
          (c.documents.filter fun stored => !Collection.sameId stored d) ↔ findsSameId c d v = true) ∧
      ∀ {before after : List Document} {stored : Document} {id : Value},
        c.documents = before ++ stored :: after → Collection.sameId stored d = true →
        stored.get? idField = some id →
        (∀ other ∈ before ++ after, ∀ spec ∈ c.indexes, spec.isUnique = true →
          Collection.agreesOn spec (d.insert idField id) other = false) →
        ((r.update d s).1 = .ok d ∧ s.store.Rewritten (r.update d s).2.store r.binding.collection
            (before ++ d.insert idField id :: after) ↔ findsSameId c d v = true) := by
  intro c
  have hvalid : c.Valid := hs.valid.collection r.binding.collection
  have hpairwise := hvalid.sameId_pairwise d
  obtain ⟨hok, hrewritten⟩ := delete_rewrites (s := s) hr hv
  refine ⟨hok, ?_, ?_, ?_⟩
  · exact length_filter_le_one hpairwise
  · rw [hrewritten.iff_eq, findsSameId, Option.all_eq_true]
    exact eraseP_eq_filter_iff (fun stored _ => Collection.foundBy_of_sameId hv) hpairwise
  · intro before after stored id hdocs hsame hid hunique
    exact update_iff hs hr hd hv hdocs hsame hid hunique

/-- Of two documents, the second is deleted, and updated in its place. -/
theorem delete_update_of_second :
    let r : DocumentRepository := ⟨⟨"notes", "DocumentRepository(notes)", true⟩⟩
    let s := (r.add [("_id", .int32 2)] (r.add [("_id", .int32 1)] .empty).2).2
    let d : Document := [("_id", .int32 2), ("done", .bool true)]
    s.store.Rewritten (r.delete d s).2.store "notes"
        ((s.store.collection "notes").documents.filter fun stored => !Collection.sameId stored d) ∧
      s.store.Rewritten (r.update d s).2.store "notes" [[("_id", .int32 1)], d] := by
  intro r s d
  have hs : s.Reachable := r.keeps_add (by decide) _ (r.keeps_add (by decide) _ (.init rfl))
  have hr : r.binding.bound = true := rfl
  have hd : Document.wellKeyed d = true := by decide
  have hv : d.get? idField = some (.int32 2) := rfl
  have hdocs : (s.store.collection "notes").documents = [[("_id", .int32 1)]] ++ [("_id", .int32 2)] :: [] := rfl
  have hindexes : (s.store.collection "notes").indexes = [] := rfl
  obtain ⟨-, -, hdelete, hupdate⟩ := delete_update_iff hs hr hd hv
  refine ⟨hdelete.2 (by decide), ((hupdate hdocs (by decide) rfl ?_).2 (by decide)).2⟩
  intro other _ spec hspec
  rw [hindexes] at hspec
  cases hspec

/-- Deleting the wide integer 1 leaves it in the store and removes the integer 1, and updating it is
refused. -/
theorem delete_another_document :
    let r : DocumentRepository := ⟨⟨"notes", "DocumentRepository(notes)", true⟩⟩
    let d : Document := [("_id", .int64 1)]
    let other : Document := [("_id", .int32 1)]
    let s := (r.add d (r.add other .empty).2).2
    let deleted := (r.delete d s).2
    s.Reachable ∧ (s.store.collection "notes").documents.any (Collection.sameId · d) = true ∧
      (r.delete d s).1.isOk = true ∧
      (deleted.store.collection "notes").documents.any (Collection.sameId · d) = true ∧
      (deleted.store.collection "notes").documents.any (Collection.sameId · other) = false ∧
      (r.update d s).1.isOk = false := by
  intro r d other s deleted
  have hs : s.Reachable := r.keeps_add (by decide) _ (r.keeps_add (by decide) _ (.init rfl))
  exact ⟨hs, by decide⟩

end DocumentRepository
end Docbase
