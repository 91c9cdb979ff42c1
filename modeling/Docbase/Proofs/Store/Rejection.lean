/-
When a query is rejected. A fault of the filter is seen only in testing a document, and a
mixed selection only in a document that the window shows: `Collection.rejects_iff`.

So whether a query is rejected depends on the documents. An empty collection rejects none,
and all collections with the same indexes agree on a query iff none of them rejects it:
`Collection.rejection_exact`.
-/
import Docbase.Proofs.Store.Find
import Docbase.Proofs.Store.Verdict

namespace Docbase

theorem Query.window_eq_nil_iff {α : Type} {q : Query} {xs : List α} :
    q.window xs = [] ↔ q.limit = some 0 ∨ xs.length ≤ q.offset.getD 0 := by
  unfold window
  cases q.limit with
  | none => simp
  | some n => simp

/-- A mixed selection is refused by any document that it is applied to. -/
theorem Selection.mapM_apply_isError_iff {s : Selection} {ds : List Document} :
    (∃ e, ds.mapM s.apply = .error e) ↔ s.isMixed = true ∧ ds ≠ [] := by
  by_cases hs : s = []
  · subst hs
    rw [mapM_apply_nil]
    simp [isMixed, others]
  · have hok : (∃ es, ds.mapM s.apply = .ok es) ↔ ¬(s.isMixed = true ∧ ds ≠ []) := by
      cases hmixed : s.isMixed <;> simp [mapM_apply_eq_ok_iff hs, hmixed]
    cases houtcome : ds.mapM s.apply with
    | error e => exact iff_of_true ⟨e, rfl⟩ (by simpa [houtcome] using hok)
    | ok es => exact iff_of_false (by simp) (hok.1 ⟨es, houtcome⟩)

namespace Collection

variable {c : Collection} {q : Query} {p : Option Predicate} {d : Document}

def Rejects (c : Collection) (q : Query) : Prop := ∃ e, c.find q = .error e

/-- Whether a leaf of a filter that is looked at in testing a document is at fault. -/
def MeetsFault (c : Collection) (filter : Option Predicate) (d : Document) : Prop :=
  ∃ p ∈ filter, ∃ leaf ∈ p.looked c.textFields d, leaf.fault? c.textFields ≠ none

theorem meetsFault_iff : c.MeetsFault p d ↔ ∃ e, c.verdict p d = .error e := by
  cases p with
  | none => simp [MeetsFault, verdict]
  | some p =>
    simp only [MeetsFault, Option.mem_def, Option.some.injEq, exists_eq_left', verdict,
      Predicate.eval_eq_error_iff, Option.ne_none_iff_exists']
    constructor
    · rintro ⟨leaf, hleaf, e, he⟩
      exact ⟨e, leaf, hleaf, he⟩
    · rintro ⟨e, leaf, hleaf, he⟩
      exact ⟨leaf, hleaf, e, he⟩

/-- **When a query is rejected**: a document meets a fault of the filter, or the selection is mixed and
the window shows a document. -/
theorem rejects_iff : c.Rejects q ↔ (∃ d ∈ c.documents, c.MeetsFault q.filter d) ∨
    (q.selection.isMixed = true ∧ q.limit ≠ some 0 ∧
      q.offset.getD 0 < (c.documents.filter (c.accepts q.filter)).length) := by
  rcases c.judge_cases q.filter with ⟨e, hjudge, d, hd, hverdict⟩ | ⟨hjudge, hverdicts⟩
  · refine iff_of_true ⟨e, ?_⟩ (.inl ⟨d, hd, meetsFault_iff.2 ⟨e, hverdict⟩⟩)
    rw [find, matching, hjudge]
    rfl
  · have hmeets : ¬∃ d ∈ c.documents, c.MeetsFault q.filter d := by
      rintro ⟨d, hd, hmeets⟩
      obtain ⟨e, herror⟩ := meetsFault_iff.1 hmeets
      cases herror.symm.trans (hverdicts d hd)
    have hwindow : q.window (arrange q.sort (c.documents.filter (c.accepts q.filter))) ≠ [] ↔
        q.limit ≠ some 0 ∧ q.offset.getD 0 < (c.documents.filter (c.accepts q.filter)).length := by
      rw [Ne, Query.window_eq_nil_iff, (arrange_perm q.sort _).length_eq, not_or, Nat.not_le]
    rw [or_iff_right hmeets, ← hwindow, ← Selection.mapM_apply_isError_iff, Rejects, find,
      matching_of_judge hjudge]

/-- A collection without documents rejects no query. -/
theorem not_rejects_of_nil (h : c.documents = []) : ¬c.Rejects q := by
  rw [rejects_iff, h]
  simp

/-- A filter whose first leaf is at fault is rejected by all collections but those without documents. -/
theorem rejects_of_first {p : Predicate} (hfilter : q.filter = some p)
    (hfault : p.first.fault? c.textFields ≠ none) : c.Rejects q ↔ c.documents ≠ [] := by
  constructor
  · intro hrejects hnil
    exact not_rejects_of_nil hnil hrejects
  · intro hne
    obtain ⟨d, hd⟩ := List.exists_mem_of_ne_nil _ hne
    exact rejects_iff.2 (.inl ⟨d, hd, p, hfilter, p.first, p.first_mem_looked, hfault⟩)

/-- Collections with the same indexes agree on a query iff none of them rejects it. -/
theorem rejects_alike_iff (c : Collection) (q : Query) :
    (∀ a b : Collection, a.indexes = c.indexes → b.indexes = c.indexes → (a.Rejects q ↔ b.Rejects q)) ↔
      ∀ a : Collection, a.indexes = c.indexes → ¬a.Rejects q := by
  constructor
  · intro halike a ha
    rw [halike a ⟨[], c.indexes⟩ ha rfl]
    exact not_rejects_of_nil rfl
  · intro hnone a b ha hb
    exact iff_of_false (hnone a ha) (hnone b hb)

theorem textFields_of_indexes {a : Collection} (h : a.indexes = c.indexes) : a.textFields = c.textFields := by
  rw [textFields, textFields, h]

theorem accepts_of_indexes {a : Collection} (h : a.indexes = c.indexes) : a.accepts p = c.accepts p := by
  funext d
  unfold accepts verdict
  rw [textFields_of_indexes h]

/-- What no documents get rejected: a filter that meets a fault nowhere, and a selection that is not
mixed, or is never applied. -/
theorem never_rejects_iff (c : Collection) (q : Query) :
    (∀ a : Collection, a.indexes = c.indexes → ¬a.Rejects q) ↔ (∀ d, ¬c.MeetsFault q.filter d) ∧
      (q.selection.isMixed = true → q.limit = some 0 ∨ ∀ d, c.accepts q.filter d = false) := by
  constructor
  · intro hnone
    refine ⟨fun d hmeets => ?_, fun hmixed => ?_⟩
    · exact hnone ⟨[d], c.indexes⟩ rfl (rejects_iff.2 (.inl ⟨d, List.mem_singleton_self d, hmeets⟩))
    · by_contra! hshown
      obtain ⟨hlimit, d, haccepts⟩ := hshown
      rw [Ne, Bool.not_eq_false] at haccepts
      -- as many copies as it takes to fill the documents that the window leaves out, and one more
      refine hnone ⟨List.replicate (q.offset.getD 0 + 1) d, c.indexes⟩ rfl
        (rejects_iff.2 (.inr ⟨hmixed, hlimit, ?_⟩))
      show q.offset.getD 0 < ((List.replicate _ d).filter (c.accepts q.filter)).length
      rw [List.filter_replicate_of_pos haccepts, List.length_replicate]
      exact Nat.lt_succ_self _
  · rintro ⟨hmeets, hmixed⟩ a ha hrejects
    rcases rejects_iff.1 hrejects with ⟨d, -, hfault⟩ | ⟨h, hlimit, hlt⟩
    · rw [MeetsFault, textFields_of_indexes ha] at hfault
      exact hmeets d hfault
    · rcases hmixed h with hzero | hnothing
      · exact hlimit hzero
      · rw [accepts_of_indexes ha, List.filter_eq_nil_iff.2 (by simp [hnothing])] at hlt
        exact Nat.not_lt_zero _ hlt

/-- A query without any leaf at fault and without a mixed selection is never rejected. -/
theorem not_rejects_of_sound (hleaves : ∀ p ∈ q.filter, ∀ leaf ∈ p.leaves, leaf.fault? c.textFields = none)
    (hmixed : q.selection.isMixed = false) : ¬c.Rejects q := by
  rw [rejects_iff, hmixed]
  rintro (⟨d, -, p, hp, leaf, hlooked, hfault⟩ | ⟨h, -⟩)
  · exact hfault (hleaves p hp leaf (p.looked_subset_leaves hlooked))
  · cases h

/-- **Whether a query is rejected depends on the documents**, as they are tested and shown. It does not
depend on them for those queries only that no documents get rejected. A filter whose first leaf is at
fault, such as a search alone, is rejected unless there are no documents; a query without any fault is
never rejected. -/
theorem rejection_exact (c : Collection) (q : Query) :
    (∀ (s : Store) name, (∃ e, s.find name q = .error e) ↔ (s.collection name).Rejects q) ∧
    (c.Rejects q ↔ (∃ d ∈ c.documents, c.MeetsFault q.filter d) ∨
      (q.selection.isMixed = true ∧ q.limit ≠ some 0 ∧
        q.offset.getD 0 < (c.documents.filter (c.accepts q.filter)).length)) ∧
    ((∀ a b : Collection, a.indexes = c.indexes → b.indexes = c.indexes → (a.Rejects q ↔ b.Rejects q)) ↔
      (∀ d, ¬c.MeetsFault q.filter d) ∧
        (q.selection.isMixed = true → q.limit = some 0 ∨ ∀ d, c.accepts q.filter d = false)) ∧
    (∀ p, q.filter = some p → p.first.fault? c.textFields ≠ none → (c.Rejects q ↔ c.documents ≠ [])) ∧
    ((∀ p ∈ q.filter, ∀ leaf ∈ p.leaves, leaf.fault? c.textFields = none) → q.selection.isMixed = false →
      ¬c.Rejects q) := by
  refine ⟨fun s name => ?_, rejects_iff, ?_, fun p => rejects_of_first, not_rejects_of_sound⟩
  · rw [s.find_eq, Rejects]
  · rw [rejects_alike_iff, never_rejects_iff]

/-- One document is enough to see what is wrong with a search without a text index, with a membership
test without a list, and with a mixed selection. Without it, all three are answered. -/
theorem rejects_by_one_document :
    let byName : IndexSpec := ⟨"byName", [⟨"name", .ascending⟩], false, .standard⟩
    let empty : Collection := ⟨[], [byName]⟩
    let one : Collection := ⟨[[("_id", .string "x")]], [byName]⟩
    let search := { Query.all with filter := some (.text "ana") }
    let membership := { Query.all with filter := some (.compare "name" .isIn (.string "ana")) }
    let mixed := { Query.all with selection := [⟨"name", true⟩, ⟨"age", false⟩] }
    empty.indexes = one.indexes ∧ ∀ q ∈ [search, membership, mixed], one.Rejects q ∧ ¬empty.Rejects q := by
  intro byName empty one search membership mixed
  refine ⟨rfl, fun q hq => ⟨?_, not_rejects_of_nil rfl⟩⟩
  simp only [List.mem_cons, List.not_mem_nil, or_false] at hq
  rcases hq with rfl | rfl | rfl
  · exact ⟨.store .textIndexMissing, rfl⟩
  · exact ⟨.store .membershipOverScalar, rfl⟩
  · exact ⟨.store .mixedSelection, rfl⟩

end Collection
end Docbase
