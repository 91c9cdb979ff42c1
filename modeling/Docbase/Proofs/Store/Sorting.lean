/-
Finding filters, sorts and cuts out a window, in this order (`Store.find_arranged`).

Off NaN the sort goes by a total preorder, what the sort keys weigh, so that merge sort
arranges the matches and keeps the store order of those that tie (`arranged_arrange`).
If a selection leaves something of every match, a window may be cut out before the
selection or after it (`find_eq_window`).
-/
import Docbase.Proofs.Matching.SortOrder
import Docbase.Proofs.Store.Find

namespace Docbase

/-- Whether a direction lets a document stand before another that it compares to in this way. -/
def SortDirection.Allows : SortDirection → Ordering → Prop
  | .asc, o => o ≠ .gt
  | .desc, o => o ≠ .lt

namespace Collection

/-! ## Sorting -/

/-- Whether two documents tie under a sort. -/
def ties (s : SortOrder) (a b : Document) : Bool :=
  (sortKey s.field a).sortOrdering (sortKey s.field b) = .eq

/-- Documents in the order that a sort asks for, ties in the order in which they were. -/
structure Arranged (sort : Option SortOrder) (ds sorted : List Document) : Prop where
  perm : sorted.Perm ds
  unsorted : sort = none → sorted = ds
  ordered : ∀ s, sort = some s → sorted.Pairwise fun a b =>
    s.direction.Allows ((sortKey s.field a).sortOrdering (sortKey s.field b))
  stable : ∀ s, sort = some s → ∀ d ∈ ds, sorted.filter (ties s d) = ds.filter (ties s d)

/-- Whether a field of a document holds something else than NaN; an array may have it as an item. -/
def HoldsNoNaN (field : String) (d : Document) : Prop :=
  ∀ x, d.lookup? field = some (.double x) → x.isNaN = false

theorem isNaN_sortKey {field : String} {d : Document} (h : HoldsNoNaN field d) :
    (sortKey field d).isNaN = false := by
  unfold sortKey Document.operand?
  cases hv : d.lookup? field with
  | none => rfl
  | some v =>
    rw [Option.map_some, Option.getD_some, Operand.isNaN_ofValue]
    cases v with
    | double x => exact h x hv
    | _ => rfl

/-- What a sort makes of two documents without NaN; it is a total preorder on all documents. -/
def weighed (s : SortOrder) (a b : Document) : Bool :=
  match s.direction with
  | .asc => ((sortKey s.field a).weigh (sortKey s.field b)).isLE
  | .desc => ((sortKey s.field b).weigh (sortKey s.field a)).isLE

theorem weighed_trans (s : SortOrder) (a b c : Document) (hab : weighed s a b = true) (hbc : weighed s b c = true) :
    weighed s a c = true := by
  obtain ⟨field, direction⟩ := s
  cases direction with
  | asc => exact Std.TransCmp.isLE_trans hab hbc
  | desc => exact Std.TransCmp.isLE_trans hbc hab

theorem weighed_total (s : SortOrder) (a b : Document) : (weighed s a b || weighed s b a) = true := by
  obtain ⟨field, direction⟩ := s
  cases direction with
  | asc => exact Operand.weigh_total _ _
  | desc => exact Operand.weigh_total _ _

variable {s : SortOrder} {ds : List Document}

theorem inOrder_eq {a b : Document} (ha : HoldsNoNaN s.field a) (hb : HoldsNoNaN s.field b) :
    inOrder s a b = weighed s a b := by
  have hle (o : Ordering) : (o != .gt) = o.isLE := by cases o <;> rfl
  obtain ⟨field, direction⟩ := s
  cases direction with
  | asc => simp only [inOrder, weighed, hle, Operand.sortOrdering_eq (isNaN_sortKey ha) (isNaN_sortKey hb)]
  | desc => simp only [inOrder, weighed, hle, Operand.sortOrdering_eq (isNaN_sortKey hb) (isNaN_sortKey ha)]

/-- Documents without NaN are sorted by weight. -/
theorem arrange_eq (h : ∀ d ∈ ds, HoldsNoNaN s.field d) : arrange (some s) ds = ds.mergeSort (weighed s) := by
  have hsort := List.map_mergeSort (f := id) (r := inOrder s) (s := weighed s) (l := ds)
    fun a ha b hb => inOrder_eq (h a ha) (h b hb)
  rw [List.map_id, List.map_id] at hsort
  exact hsort

theorem allows_of_weighed {a b : Document} (ha : HoldsNoNaN s.field a) (hb : HoldsNoNaN s.field b)
    (h : weighed s a b = true) :
    s.direction.Allows ((sortKey s.field a).sortOrdering (sortKey s.field b)) := by
  rw [Operand.sortOrdering_eq (isNaN_sortKey ha) (isNaN_sortKey hb)]
  obtain ⟨field, direction⟩ := s
  cases direction with
  | asc =>
    intro hgt
    simp [weighed, hgt] at h
  | desc =>
    intro hlt
    simp [weighed, Std.OrientedCmp.gt_of_lt hlt] at h

/-- Documents that tie with one document may stand either way round. -/
theorem weighed_of_ties {a b d : Document} (ha : HoldsNoNaN s.field a) (hb : HoldsNoNaN s.field b)
    (hd : HoldsNoNaN s.field d) (hda : ties s d a = true) (hdb : ties s d b = true) : weighed s a b = true := by
  rw [ties, decide_eq_true_eq, Operand.sortOrdering_eq (isNaN_sortKey hd) (isNaN_sortKey ha)] at hda
  rw [ties, decide_eq_true_eq, Operand.sortOrdering_eq (isNaN_sortKey hd) (isNaN_sortKey hb)] at hdb
  have hab := Std.TransCmp.eq_trans (Std.OrientedCmp.eq_symm hda) hdb
  obtain ⟨field, direction⟩ := s
  cases direction with
  | asc => exact Ordering.isLE_of_eq_eq hab
  | desc => exact Ordering.isLE_of_eq_eq (Std.OrientedCmp.eq_symm hab)

/-- **A sort arranges documents without NaN.** -/
theorem arranged_arrange {sort : Option SortOrder} (h : ∀ s, sort = some s → ∀ d ∈ ds, HoldsNoNaN s.field d) :
    Arranged sort ds (arrange sort ds) where
  perm := arrange_perm sort ds
  unsorted := by
    rintro rfl
    rfl
  ordered := by
    rintro s rfl
    have hds := h s rfl
    rw [arrange_eq hds]
    have hsorted := List.pairwise_mergeSort (weighed_trans s) (weighed_total s) ds
    refine hsorted.imp_of_mem fun ha hb hab => ?_
    exact allows_of_weighed (hds _ (List.mem_mergeSort.1 ha)) (hds _ (List.mem_mergeSort.1 hb)) hab
  stable := by
    rintro s rfl d hd
    have hds := h s rfl
    -- The documents that tie are sorted already, and a sorted part of a list is a part of what it is sorted to.
    have hpart : (ds.filter (ties s d)).Pairwise fun a b => weighed s a b = true := by
      rw [List.pairwise_iff_forall_sublist]
      intro a b hab
      have hmem := hab.subset
      simp only [List.cons_subset, List.mem_filter] at hmem
      exact weighed_of_ties (hds a hmem.1.1) (hds b hmem.2.1.1) (hds d hd) hmem.1.2 hmem.2.1.2
    have hsub := List.sublist_mergeSort (weighed_trans s) (weighed_total s) hpart List.filter_sublist
    rw [← arrange_eq hds] at hsub
    have hfilter := hsub.filter (ties s d)
    simp only [List.filter_filter, Bool.and_self] at hfilter
    refine (hfilter.eq_of_length ?_).symm
    exact ((arrange_perm (some s) ds).filter (ties s d)).length_eq.symm

/-! ## Windows -/

end Collection

theorem Query.window_forall₂ {α β : Type} {R : α → β → Prop} (q : Query) {xs : List α} {ys : List β}
    (h : List.Forall₂ R xs ys) : List.Forall₂ R (q.window xs) (q.window ys) := by
  have hrest := List.forall₂_drop (q.offset.getD 0) h
  unfold Query.window
  dsimp only
  split
  · exact hrest
  · exact List.forall₂_take _ hrest

theorem Selection.exists_mapM_apply {s : Selection} {ds : List Document} (h : ∀ d ∈ ds, ∃ e, s.apply d = .ok e) :
    ∃ es, ds.mapM s.apply = .ok es := by
  rcases mapM_cases s.apply ds with ⟨error, -, d, hd, herror⟩ | ⟨es, hes, -⟩
  · obtain ⟨e, he⟩ := h d hd
    rw [herror] at he
    cases he
  · exact ⟨es, hes⟩

/-- A window on what is selected shows what is selected in the window. -/
theorem Collection.find_eq_window {c : Collection} {q : Query} {ds es : List Document}
    (hmatching : c.matching q.filter = .ok ds) (hes : (arrange q.sort ds).mapM q.selection.apply = .ok es) :
    c.find q = .ok (q.window es) := by
  simp only [find, hmatching]
  exact mapM_eq_ok_iff.2 (q.window_forall₂ (mapM_eq_ok_iff.1 hes))

namespace Store

open Collection

/-- **Finding filters, then sorts, then cuts out the window.** If the predicate of a query is refused
by a document, so is the query, whatever its window. Otherwise, for a selection that no match refuses
and a sort field that holds no NaN in any match, the matches have an arrangement, sorted with a missing
field as null, in store order where they tie: without a window it is found with each document cut to
its selection; a window of `l` documents from position `o` shows those from `o` to `o + l - 1`; and
two windows in a row show what one window shows in their place. -/
theorem find_arranged (s : Store) (name : String) (q : Query)
    (hselection : ∀ d ∈ (s.collection name).documents, (s.collection name).accepts q.filter d = true →
      ∃ e, q.selection.apply d = .ok e)
    (hnan : ∀ sort, q.sort = some sort → ∀ d ∈ (s.collection name).documents,
      (s.collection name).accepts q.filter d = true → HoldsNoNaN sort.field d) :
    (∃ e, ∃ d ∈ (s.collection name).documents, (s.collection name).verdict q.filter d = .error e ∧
      ∀ offset limit, s.find name { q with offset, limit } = .error e) ∨
    ((∀ d ∈ (s.collection name).documents,
        (s.collection name).verdict q.filter d = .ok ((s.collection name).accepts q.filter d)) ∧
      ∃ sorted es,
        Arranged q.sort ((s.collection name).documents.filter ((s.collection name).accepts q.filter)) sorted ∧
        List.Forall₂ (fun d e => q.selection.apply d = .ok e) sorted es ∧
        s.find name { q with offset := none, limit := none } = .ok es ∧
        (∀ o l, s.find name { q with offset := some o, limit := some l } = .ok ((es.drop o).take l)) ∧
        ∀ o l m, ∃ first second,
          s.find name { q with offset := some o, limit := some l } = .ok first ∧
          s.find name { q with offset := some (o + l), limit := some m } = .ok second ∧
          s.find name { q with offset := some o, limit := some (l + m) } = .ok (first ++ second)) := by
  simp only [find_eq]
  generalize s.collection name = c at hselection hnan ⊢
  rcases c.judge_cases q.filter with ⟨e, hjudge, d, hd, herror⟩ | ⟨hjudge, hverdicts⟩
  · refine .inl ⟨e, d, hd, herror, fun offset limit => ?_⟩
    have hmatching : c.matching q.filter = .error e := by rw [matching, hjudge, error_map]
    simp only [Collection.find, hmatching]
  · have hmatching := matching_of_judge hjudge
    have hperm := arrange_perm q.sort (c.documents.filter (c.accepts q.filter))
    obtain ⟨es, hes⟩ := Selection.exists_mapM_apply fun d hd => by
      obtain ⟨hd, haccepts⟩ := List.mem_filter.1 (hperm.mem_iff.1 hd)
      exact hselection d hd haccepts
    have hwindow (offset limit : Option Nat) : c.find { q with offset, limit } =
        .ok (Query.window { q with offset, limit } es) := find_eq_window hmatching hes
    refine .inr ⟨hverdicts, _, es, arranged_arrange fun sort hsort d hd => ?_, mapM_eq_ok_iff.1 hes,
      hwindow none none, fun o l => hwindow (some o) (some l), fun o l m =>
      ⟨_, _, hwindow (some o) (some l), hwindow (some (o + l)) (some m), ?_⟩⟩
    · obtain ⟨hd, haccepts⟩ := List.mem_filter.1 hd
      exact hnan sort hsort d hd haccepts
    · rw [hwindow]
      simp only [Query.window, Option.getD_some, List.take_add, List.drop_drop]

/-- Two numbers that tie, a missing field, a string and an array with a NaN in it, sorted downwards; the
document with a NaN of its own is filtered out. -/
theorem find_arranged_of_six_documents :
    let documents : List Document :=
      [[("_id", .int32 1), ("v", .int32 2)], [("_id", .int32 2)], [("_id", .int32 3), ("v", .string "a")],
        [("_id", .int32 4), ("v", .double ⟨0x4000000000000000⟩)],
        [("_id", .int32 5), ("v", .array [.double ⟨0x7FF8000000000000⟩])],
        [("_id", .int32 6), ("v", .double ⟨0x7FF8000000000000⟩), ("hidden", .bool true)]]
    let s : Store := ⟨[("c", ⟨documents, []⟩)]⟩
    let q : Query := ⟨some (.eq "hidden" .null), some ⟨"v", .desc⟩, none, none, [⟨"hidden", false⟩]⟩
    ∃ sorted es, Arranged (some ⟨"v", .desc⟩) (documents.take 5) sorted ∧
      List.Forall₂ (fun d e => q.selection.apply d = .ok e) sorted es ∧ s.find "c" q = .ok es ∧
      ∀ o l, s.find "c" { q with offset := some o, limit := some l } = .ok ((es.drop o).take l) := by
  intro documents s q
  have hnan : ∀ sort, q.sort = some sort → ∀ d ∈ (s.collection "c").documents,
      (s.collection "c").accepts q.filter d = true → HoldsNoNaN sort.field d := by
    rintro sort hsort d hd haccepts x hx
    cases hsort
    have hd : d ∈ documents := hd
    simp only [documents, List.mem_cons, List.not_mem_nil, or_false] at hd
    rcases hd with rfl | rfl | rfl | rfl | rfl | rfl
    · cases hx
    · cases hx
    · cases hx
    · cases hx
      decide
    · cases hx
    · cases haccepts
  rcases find_arranged s "c" q (fun d _ _ => ⟨_, rfl⟩) hnan with
    ⟨e, d, hd, herror, -⟩ | ⟨-, sorted, es, harranged, hes, hall, hwindow, -⟩
  · cases herror
  · exact ⟨sorted, es, harranged, hes, hall, hwindow⟩

end Store
end Docbase
