/-
What finding and counting return. A collection that does not exist answers like an
empty one (`Store.find_eq`, `Store.count_eq`). Whole documents that are found are
stored documents (`Collection.find_subset`); without a predicate and an order the
window is cut out of the collection as it stands (`Collection.find_unfiltered`).
-/
import Docbase.Proofs.Store.Verdict
import Docbase.Store.Basic

namespace Docbase

namespace Selection

theorem mapM_apply_nil (ds : List Document) : ds.mapM (apply []) = .ok ds := by
  rw [mapM_eq_ok_iff, List.forall₂_same]
  exact fun d _ => rfl

/-- The selected part of a document, for a selection that is neither empty nor mixed. -/
def cut (s : Selection) (d : Document) : Document := d.filter fun p => s.keeps p.1

theorem apply_of_ne_nil {s : Selection} (hs : s ≠ []) (d : Document) :
    s.apply d = if s.isMixed then .error (.store .mixedSelection) else .ok (s.cut d) := by
  rw [apply, if_neg (by simpa using hs)]
  rfl

/-- Whether a selection is refused does not depend on the documents, as long as there are any. -/
theorem mapM_apply_eq_ok_iff {s : Selection} (hs : s ≠ []) {ds es : List Document} :
    ds.mapM s.apply = .ok es ↔ (ds ≠ [] → s.isMixed = false) ∧ es = ds.map s.cut := by
  rw [mapM_eq_ok_iff]
  cases hmixed : s.isMixed with
  | false =>
    simp only [apply_of_ne_nil hs, hmixed, Bool.false_eq_true, if_false, Except.ok.injEq]
    rw [← List.forall₂_map_left_iff, List.forall₂_eq_eq_eq]
    simp [eq_comm]
  | true =>
    cases ds with
    | nil => simp
    | cons d ds => simp [apply_of_ne_nil hs, hmixed, List.forall₂_cons_left_iff]

end Selection

theorem Query.window_sublist {α : Type} (q : Query) (xs : List α) : (q.window xs).Sublist xs := by
  have hrest : (xs.drop (q.offset.getD 0)).Sublist xs := List.drop_sublist _ _
  unfold Query.window
  dsimp only
  split
  · exact hrest
  · exact (List.take_sublist _ _).trans hrest

namespace Collection

variable {c : Collection} {p : Option Predicate} {q : Query} {ds : List Document}

theorem matching_sublist (h : c.matching p = .ok ds) : ds.Sublist c.documents := by
  obtain ⟨judged, hjudge, rfl⟩ := map_eq_ok_iff.1 h
  rw [← judge_documents hjudge]
  exact List.filter_sublist.map Prod.fst

theorem judge_none (c : Collection) : c.judge none = .ok (c.documents.map fun d => (d, true)) :=
  judge_of_verdicts fun _ _ => rfl

theorem matching_none (c : Collection) : c.matching none = .ok c.documents := by
  rw [matching_of_judge c.judge_none, List.filter_true]

theorem count_none (c : Collection) : c.count none = .ok c.documents.length := by
  rw [count, matching_none, ok_map]

theorem arrange_perm (s : Option SortOrder) (ds : List Document) : (arrange s ds).Perm ds := by
  cases s with
  | none => exact .refl ds
  | some s => exact List.mergeSort_perm ds _

/-- Whole documents that are found are stored documents. -/
theorem find_subset (hselection : q.selection = []) (h : c.find q = .ok ds) : ds ⊆ c.documents := by
  unfold find at h
  split at h
  · cases h
  · next found hmatching =>
    rw [hselection, Selection.mapM_apply_nil] at h
    cases h
    intro d hd
    have harranged : d ∈ arrange q.sort found := (q.window_sublist _).subset hd
    exact (matching_sublist hmatching).subset ((arrange_perm q.sort found).mem_iff.1 harranged)

theorem find_unfiltered (hfilter : q.filter = none) (hsort : q.sort = none) :
    c.find q = (q.window c.documents).mapM q.selection.apply := by
  rw [find, hfilter, hsort, matching_none]
  rfl

theorem find_empty (q : Query) : Collection.empty.find q = .ok [] := by
  have hmatching : Collection.empty.matching q.filter = .ok [] := rfl
  have harranged : arrange q.sort [] = [] := (arrange_perm q.sort []).eq_nil
  have hwindow : q.window ([] : List Document) = [] := List.sublist_nil.1 (q.window_sublist [])
  rw [find, hmatching]
  dsimp only
  rw [harranged, hwindow, List.mapM_nil]
  rfl

end Collection

namespace Store

theorem find_eq (s : Store) (name : String) (q : Query) : s.find name q = (s.collection name).find q := by
  unfold find collection
  cases s.get? name with
  | none => exact (Collection.find_empty q).symm
  | some c => rfl

theorem count_eq (s : Store) (name : String) (p : Option Predicate) :
    s.count name p = (s.collection name).count p := by
  unfold count collection
  cases s.get? name with
  | none => rfl
  | some c => rfl

end Store
end Docbase
