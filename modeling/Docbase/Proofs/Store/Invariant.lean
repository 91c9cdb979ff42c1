/-
The invariant of a collection, and that every operation on it keeps the
invariant.

`Collection.Valid`: every document has an `_id`, no two documents collide (on
`_id` or in a unique index), and at most one index is a text index. Documents
hold no key twice, which is what makes collisions symmetric.
-/
import Docbase.Proofs.Store.Collection

namespace Docbase

theorem length_filter_le_one {α : Type} {q : α → Bool} {xs : List α}
    (hunique : xs.Pairwise fun x y => ¬(q x = true ∧ q y = true)) : (xs.filter q).length ≤ 1 := by
  induction xs with
  | nil => simp
  | cons x xs ih =>
    obtain ⟨hx, hxs⟩ := List.pairwise_cons.1 hunique
    by_cases hq : q x = true
    · have hnone : xs.filter q = [] := List.filter_eq_nil_iff.2 fun y hy hqy => hx y hy ⟨hq, hqy⟩
      rw [List.filter_cons_of_pos hq, hnone]
      simp
    · rw [List.filter_cons_of_neg hq]
      exact ih hxs

namespace Collection

/-- What is true of every collection at any time. -/
structure Valid (c : Collection) : Prop where
  wellKeyed : ∀ d ∈ c.documents, Document.wellKeyed d = true
  identified : ∀ d ∈ c.documents, Fields.contains d idField = true
  apart : c.documents.Pairwise fun a b => collides c.indexes a b = false
  textIndexes : (c.indexes.filter IndexSpec.isText).length ≤ 1

theorem Valid.empty : Collection.empty.Valid :=
  ⟨by simp [Collection.empty], by simp [Collection.empty], .nil, by decide⟩

/-- Documents at different places do not collide, in whichever order they stand. -/
theorem Valid.collides_of_ne {c : Collection} (h : c.Valid) {i j : Nat} {a b : Document} (hne : i ≠ j)
    (ha : c.documents[i]? = some a) (hb : c.documents[j]? = some b) : collides c.indexes a b = false := by
  obtain ⟨hi, rfl⟩ := List.getElem?_eq_some_iff.1 ha
  obtain ⟨hj, rfl⟩ := List.getElem?_eq_some_iff.1 hb
  have hpairwise := List.pairwise_iff_getElem.1 h.apart
  rcases Nat.lt_or_gt_of_ne hne with hlt | hgt
  · exact hpairwise i j hi hj hlt
  · exact collides_symm (h.wellKeyed _ (List.getElem_mem hj)) (h.wellKeyed _ (List.getElem_mem hi))
      (hpairwise j i hj hi hgt)

/-- A document collides with none of those around it. -/
theorem Valid.collides_around {c : Collection} (h : c.Valid) {before after : List Document} {d : Document}
    (hdocs : c.documents = before ++ d :: after) :
    ∀ other ∈ before ++ after, collides c.indexes d other = false := by
  have hapart := h.apart
  rw [hdocs] at hapart
  obtain ⟨-, hafter, hcross⟩ := List.pairwise_append.1 hapart
  intro other hother
  rcases List.mem_append.1 hother with hother | hother
  · have hkeyed := h.wellKeyed other (by simp [hdocs, hother])
    have hkeyed' := h.wellKeyed d (by simp [hdocs])
    exact collides_symm hkeyed hkeyed' (hcross other hother d List.mem_cons_self)
  · exact (List.pairwise_cons.1 hafter).1 other hother

/-- Fewer documents are as valid. -/
theorem Valid.sublist {c : Collection} (h : c.Valid) {ds : List Document} (hsub : ds.Sublist c.documents) :
    Valid { c with documents := ds } :=
  ⟨fun d hd => h.wellKeyed d (hsub.subset hd), fun d hd => h.identified d (hsub.subset hd),
    h.apart.sublist hsub, h.textIndexes⟩

/-- A document that collides with no other one can stand anywhere. -/
theorem Valid.middle {c : Collection} {before after : List Document}
    (h : Valid { c with documents := before ++ after }) {d : Document}
    (hkeyed : Document.wellKeyed d = true) (hid : Fields.contains d idField = true)
    (hapart : ∀ other ∈ before ++ after, collides c.indexes d other = false) :
    Valid { c with documents := before ++ d :: after } := by
  have hmem {x : Document} (hx : x ∈ before ++ d :: after) : x = d ∨ x ∈ before ++ after := by
    simp only [List.mem_append, List.mem_cons] at hx ⊢
    rcases hx with hx | rfl | hx
    · exact .inr (.inl hx)
    · exact .inl rfl
    · exact .inr (.inr hx)
  refine ⟨fun x hx => ?_, fun x hx => ?_, ?_, h.textIndexes⟩
  · rcases hmem hx with rfl | hx
    · exact hkeyed
    · exact h.wellKeyed x hx
  · rcases hmem hx with rfl | hx
    · exact hid
    · exact h.identified x hx
  · obtain ⟨hbefore, hafter, hcross⟩ := List.pairwise_append.1 h.apart
    refine List.pairwise_append.2 ⟨hbefore, List.pairwise_cons.2 ⟨?_, hafter⟩, ?_⟩
    · exact fun x hx => hapart x (List.mem_append_right _ hx)
    · intro x hx y hy
      rcases List.mem_cons.1 hy with rfl | hy
      · have hkeyed' := h.wellKeyed x (List.mem_append_left _ hx)
        exact collides_symm hkeyed hkeyed' (hapart x (List.mem_append_left _ hx))
      · exact hcross x hx y hy

theorem Valid.insert {c c' : Collection} (h : c.Valid) {name : String} {d : Document}
    (hkeyed : Document.wellKeyed d = true) (hid : Fields.contains d idField = true)
    (hinsert : c.insert name d = .ok c') : c'.Valid := by
  obtain ⟨hunique, rfl⟩ := insert_eq_ok_iff.1 hinsert
  have happend : Valid { c with documents := c.documents ++ [] } := by simpa using h
  exact happend.middle hkeyed hid fun other hother => hunique other (by simpa using hother)

/-- What is stored over a document has an `_id` and holds no key twice. -/
theorem replacement_valid {stored d d' : Document} (hstored : Document.wellKeyed stored = true)
    (hid : Fields.contains stored idField = true) (hd : Document.wellKeyed d = true)
    (h : replacement stored d = .ok d') :
    Document.wellKeyed d' = true ∧ Fields.contains d' idField = true := by
  obtain ⟨id, hget⟩ := Option.isSome_iff_exists.1 hid
  rw [replacement_eq_insert hget h]
  exact ⟨Value.wellKeyed_insert hd idField (Value.wellKeyed_of_get? hstored hget),
    Fields.contains_insert_self d idField id⟩

theorem Valid.replaceOne {c c' : Collection} (h : c.Valid) {name : String} {p : Predicate} {d : Document}
    {n : Nat} (hd : Document.wellKeyed d = true) (hreplace : c.replaceOne name p d = .ok (c', n)) :
    c'.Valid := by
  rcases replaceOne_cases hreplace with rfl | ⟨before, stored, after, d', hdocs, hreplacement, hunique, rfl⟩
  · exact h
  · have hstored : stored ∈ c.documents := by simp [hdocs]
    obtain ⟨hkeyed, hid⟩ :=
      replacement_valid (h.wellKeyed stored hstored) (h.identified stored hstored) hd hreplacement
    have hsublist : (before ++ after).Sublist c.documents := by
      rw [hdocs]
      exact (List.Sublist.refl before).append (List.sublist_cons_self stored after)
    exact (h.sublist hsublist).middle hkeyed hid hunique

theorem Valid.deleteOne {c c' : Collection} (h : c.Valid) {p : Predicate} {n : Nat}
    (hdelete : c.deleteOne p = .ok (c', n)) : c'.Valid := by
  obtain ⟨ds, hds, rfl⟩ := deleteOne_sublist hdelete
  exact h.sublist hds

theorem Valid.deleteMany {c c' : Collection} (h : c.Valid) {p : Option Predicate} {n : Nat}
    (hdelete : c.deleteMany p = .ok (c', n)) : c'.Valid := by
  obtain ⟨ds, hds, rfl⟩ := deleteMany_sublist hdelete
  exact h.sublist hds

/-- A collection stays valid with an index on which no two documents agree, in place of the indexes
of its name. -/
theorem Valid.withIndex {c : Collection} (h : c.Valid) {spec : IndexSpec}
    (htext : spec.isText = true → ∀ other ∈ c.indexes, other.isText = true → other.name = spec.name)
    (hapart : spec.isUnique = true → c.documents.Pairwise fun a b => agreesOn spec b a = false) :
    Valid { c with indexes := (c.indexes.filter fun other => other.name ≠ spec.name) ++ [spec] } := by
  refine ⟨h.wellKeyed, h.identified, ?_, ?_⟩
  · have hagree : c.documents.Pairwise fun a b => spec.isUnique = true → agreesOn spec b a = false := by
      by_cases hunique : spec.isUnique = true
      · exact (hapart hunique).imp fun hab _ => hab
      · exact List.pairwise_of_forall fun _ _ hspec => absurd hspec hunique
    refine (h.apart.and hagree).imp_of_mem fun {a b} ha hb hab => ?_
    obtain ⟨hid, hspecs⟩ := collides_eq_false_iff.1 hab.1
    refine collides_eq_false_iff.2 ⟨hid, fun other hother hunique => ?_⟩
    rcases List.mem_append.1 hother with hother | hother
    · exact hspecs other (List.mem_filter.1 hother).1 hunique
    · obtain rfl := List.mem_singleton.1 hother
      rw [← Bool.not_eq_true]
      intro hagrees
      have := hab.2 hunique
      rw [agreesOn_symm (h.wellKeyed a ha) hagrees] at this
      cases this
  · rw [List.filter_append, List.length_append]
    by_cases hspec : spec.isText = true
    · -- The other text indexes have the name of the new one, and are gone.
      have hnone : (c.indexes.filter fun other => other.name ≠ spec.name).filter IndexSpec.isText = [] := by
        rw [List.filter_eq_nil_iff]
        intro other hother htextOther
        obtain ⟨hmem, hname⟩ := List.mem_filter.1 hother
        exact absurd (htext hspec other hmem htextOther) (by simpa using hname)
      rw [hnone]
      simp [hspec]
    · have hle : ((c.indexes.filter fun other => other.name ≠ spec.name).filter IndexSpec.isText).length ≤
          (c.indexes.filter IndexSpec.isText).length :=
        (List.filter_sublist.filter IndexSpec.isText).length_le
      have := h.textIndexes
      simp only [List.filter_cons, hspec, Bool.false_eq_true, if_false, List.filter_nil, List.length_nil]
      omega

theorem Valid.createIndex {c c' : Collection} (h : c.Valid) {name : String} {spec : IndexSpec}
    (hcreate : c.createIndex name spec = .ok c') : c'.Valid := by
  obtain ⟨htext, hapart, rfl⟩ := createIndex_eq_ok_iff.1 hcreate
  refine h.withIndex htext fun hunique => (hapart hunique).imp fun hab => ?_
  exact (collides_eq_false_iff.1 hab).2 spec (List.mem_singleton_self spec) hunique

end Collection
end Docbase
