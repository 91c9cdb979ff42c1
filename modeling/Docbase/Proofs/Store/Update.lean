/-
What a change of one collection does to a store. A collection that does not exist is
not changed; if it counts as empty, and the change does nothing to an empty
collection, that is the same (`Store.update_of_ok`). All other collections are as
they were (`Store.Rewritten`).
-/
import Docbase.Proofs.Fields
import Docbase.Proofs.Outcome
import Docbase.Store.Basic

namespace Docbase.Store

theorem put_of_get? {s : Store} {name : String} {c : Collection} (hget : s.get? name = some c) :
    s.put name c = s := by
  rw [put, Fields.insert_of_get? hget]

/-- A store in which one collection was given other documents, and nothing else changed. -/
def Rewritten (s t : Store) (name : String) (ds : List Document) : Prop :=
  t.collection name = { s.collection name with documents := ds } ∧
    ∀ other, other ≠ name → t.get? other = s.get? other

theorem Rewritten.iff_eq {s t : Store} {name : String} {ds es : List Document} (h : s.Rewritten t name ds) :
    s.Rewritten t name es ↔ ds = es := by
  constructor
  · intro h'
    have heq := h.1.symm.trans h'.1
    rw [Collection.mk.injEq] at heq
    exact heq.1
  · rintro rfl
    exact h

theorem Rewritten.documents {s t : Store} {name : String} {ds : List Document} (h : s.Rewritten t name ds) :
    (t.collection name).documents = ds := by
  rw [h.1]

theorem rewritten_put (s : Store) (name : String) (ds : List Document) :
    s.Rewritten (s.put name { s.collection name with documents := ds }) name ds := by
  refine ⟨?_, fun other hne => Fields.get?_insert_of_ne _ _ hne⟩
  rw [collection, get?, put, Fields.get?_insert_self, Option.getD_some]

/-- A change that does nothing to an empty collection rewrites the collection, whether it exists or not. -/
theorem update_of_ok {s : Store} {name : String} {change : Collection → Result (Collection × Nat)}
    {ds : List Document} {n : Nat} (hempty : change .empty = .ok (.empty, 0))
    (hchange : change (s.collection name) = .ok ({ s.collection name with documents := ds }, n)) :
    ∃ t, s.update name change = .ok (t, n) ∧ s.Rewritten t name ds := by
  cases hget : s.get? name with
  | none =>
    have hnone : s.collection name = .empty := by rw [collection, hget, Option.getD_none]
    rw [hnone, hempty] at hchange
    cases hchange
    exact ⟨s, by rw [update, hget], by rw [hnone]; rfl, fun _ _ => rfl⟩
  | some c =>
    have hc : s.collection name = c := by rw [collection, hget, Option.getD_some]
    have hput := s.rewritten_put name ds
    rw [hc] at hchange hput
    refine ⟨s.put name { c with documents := ds }, ?_, hput⟩
    simp only [update, hget, hchange, ok_map]

/-- A change that leaves the collection as it is leaves the store as it is. -/
theorem update_of_unchanged {s : Store} {name : String} {change : Collection → Result (Collection × Nat)}
    (hchange : change (s.collection name) = .ok (s.collection name, 0)) : s.update name change = .ok (s, 0) := by
  cases hget : s.get? name with
  | none => rw [update, hget]
  | some c =>
    rw [collection, hget, Option.getD_some] at hchange
    simp only [update, hget, hchange, ok_map, put_of_get? hget]

theorem update_of_error {s : Store} {name : String} {change : Collection → Result (Collection × Nat)} {e : Error}
    (hempty : change .empty = .ok (.empty, 0)) (hchange : change (s.collection name) = .error e) :
    s.update name change = .error e := by
  cases hget : s.get? name with
  | none =>
    rw [collection, hget, Option.getD_none, hempty] at hchange
    cases hchange
  | some c =>
    rw [collection, hget, Option.getD_some] at hchange
    simp only [update, hget, hchange, error_map]

end Docbase.Store
