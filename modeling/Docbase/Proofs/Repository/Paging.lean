/-
Pages of a collection that does not change. Of what is read in two steps, the second
is determined by the number of documents that the first found (`readPage_eq`), so
page `k` of size `n` shows the documents from position `(k - 1) * n` on, `n` of them
at most (`window_page`). Put together, the pages are the collection:
`pages_partition`.
-/
import Docbase.Proofs.Page.Window
import Docbase.Proofs.Projection.Items
import Docbase.Proofs.Repository.Entities

namespace Docbase

variable {α : Type}

/-! ## Pieces of a list -/

/-- Piece `k` of a list that is cut into pieces of `n` items, the first being piece 1. -/
def piece (xs : List α) (n k : Nat) : List α := (xs.drop ((k - 1) * n)).take n

/-- The first pieces of a list make up its beginning. -/
theorem flatMap_piece (xs : List α) (n m : Nat) :
    (List.range' 1 m).flatMap (piece xs n) = xs.take (m * n) := by
  induction m with
  | zero => simp
  | succ m ih =>
    rw [List.range'_1_concat, List.flatMap_append, ih, Nat.succ_mul, List.take_add, List.flatMap_singleton,
      piece, Nat.add_sub_cancel_left]

theorem forall₂_flatMap {β γ : Type} {R : β → γ → Prop} {f : α → List β} {g : α → List γ} {xs : List α}
    (h : ∀ x ∈ xs, List.Forall₂ R (f x) (g x)) : List.Forall₂ R (xs.flatMap f) (xs.flatMap g) := by
  induction xs with
  | nil => exact .nil
  | cons x xs ih =>
    obtain ⟨hx, hxs⟩ := List.forall_mem_cons.1 h
    rw [List.flatMap_cons, List.flatMap_cons]
    exact List.rel_append hx (ih hxs)

/-- The last page of a number of documents, `n` to a page. -/
def lastPage (count n : Nat) : Nat := max 1 ((count + n - 1) / n)

theorem count_le_lastPage_mul {n : Nat} (hn : 1 ≤ n) (count : Nat) : count ≤ lastPage count n * n := by
  have hdiv := Nat.lt_mul_div_succ (count + n - 1) hn
  have hle : (count + n - 1) / n * n ≤ lastPage count n * n := Nat.mul_le_mul_right n (Nat.le_max_right 1 _)
  rw [Nat.mul_add, Nat.mul_one, Nat.mul_comm] at hdiv
  omega

/-- Before the last page there are documents left. -/
theorem mul_lt_of_le_lastPage {n k count : Nat} (hn : 1 ≤ n) (hlast : k ≤ lastPage count n)
    (hcount : 1 ≤ count) : (k - 1) * n < count := by
  rcases Nat.le_total k 1 with hfirst | hmany
  · rw [Nat.sub_eq_zero_of_le hfirst, Nat.zero_mul]
    exact hcount
  · have hpages : k ≤ (count + n - 1) / n := by
      have hdiv : 1 ≤ (count + n - 1) / n := (Nat.le_div_iff_mul_le hn).2 (by omega)
      unfold lastPage at hlast
      omega
    have hmul : k * n ≤ count + n - 1 := (Nat.le_div_iff_mul_le hn).1 hpages
    rw [Nat.sub_mul, Nat.one_mul]
    omega

/-- There is a second page only if the documents do not fit the first. -/
theorem lt_or_eq_one_of_le_lastPage {n k count : Nat} (hn : 1 ≤ n) (hpos : 1 ≤ k)
    (hlast : k ≤ lastPage count n) : n < count ∨ k = 1 := by
  by_cases hlt : n < count
  · exact .inl hlt
  · have hone : (count + n - 1) / n ≤ 1 := by
      refine Nat.lt_succ_iff.1 ((Nat.div_lt_iff_lt_mul hn).2 ?_)
      omega
    unfold lastPage at hlast
    omega

/-! ## Contents -/

/-- The names and values of the projections of a page. -/
def Page.contents (p : Page) : List Document := p.result.map (Projection.items p.tables)

namespace Page

variable (count : Nat) (w : PageWindow) (ds : List Document) (s : NamingStrategy)

theorem ofDocuments_contents :
    List.Forall₂ List.Perm (ofDocuments count w ds s).contents (ds.map s.fieldsOf) := by
  rw [contents, List.forall₂_map_left_iff, List.forall₂_map_right_iff]
  have htable : (NameTables.empty.create []).1.Has 0 := Nat.zero_lt_one
  exact Projection.ofDocuments_items htable ds

theorem length_ofDocuments : (ofDocuments count w ds s).result.length = ds.length := by
  have hlength := (ofDocuments_contents count w ds s).length_eq
  rwa [contents, List.length_map, List.length_map] at hlength

end Page

namespace Repository

open Binding

variable {r : Repository α} {s t : Server} {q : ProjectionQuery} {p : Page} {count n : Nat}

/-! ## The two steps -/

/-- The page that is read once the documents have been counted. -/
theorem readPage_eq (r : Repository α) (q : ProjectionQuery) (count : Nat) (s : Server) :
    r.readPage q count s =
      ((((q.storeQuery (q.request.window count)).window (r.documents s)).mapM q.selection.apply).map
        fun ds => Page.ofDocuments count (q.request.window count) ds q.strategy, s) := by
  have hfind : s.store.find r.binding.collection (q.storeQuery (q.request.window count)) =
      ((q.storeQuery (q.request.window count)).window (r.documents s)).mapM q.selection.apply := by
    rw [Store.find_eq, Collection.find_unfiltered rfl rfl]
    rfl
  simp only [readPage, andThen, Server.find, Server.ask, hfind]
  cases ((q.storeQuery (q.request.window count)).window (r.documents s)).mapM q.selection.apply <;> rfl

theorem readPage_eq_ok_iff : r.readPage q count s = (.ok p, t) ↔
    ((q.storeQuery (q.request.window count)).window (r.documents s) ≠ [] → q.selection.isMixed = false) ∧
      p = Page.ofDocuments count (q.request.window count)
        (((q.storeQuery (q.request.window count)).window (r.documents s)).map q.selection.cut) q.strategy ∧
      t = s := by
  have hselection : q.selection ≠ [] := List.cons_ne_nil _ _
  rw [readPage_eq, Prod.mk.injEq, map_eq_ok_iff]
  constructor
  · rintro ⟨⟨ds, hds, rfl⟩, rfl⟩
    obtain ⟨hmixed, rfl⟩ := (Selection.mapM_apply_eq_ok_iff hselection).1 hds
    exact ⟨hmixed, rfl, rfl⟩
  · rintro ⟨hmixed, rfl, rfl⟩
    exact ⟨⟨_, (Selection.mapM_apply_eq_ok_iff hselection).2 ⟨hmixed, rfl⟩, rfl⟩, rfl⟩

theorem count_documents (r : Repository α) (s : Server) :
    Server.count r.binding.collection none s = (.ok (r.documents s).length, s) := by
  rw [Server.count, Server.ask, Store.count_eq, Collection.count_none]
  rfl

theorem project_eq (r : Repository α) (q : ProjectionQuery) (s : Server) :
    r.project q s = r.binding.run (r.readPage q (r.documents s).length) s := by
  rw [project, run, run, andThen, count_documents]

theorem project_eq_ok_iff : r.project q s = (.ok p, t) ↔
    r.binding.bound = true ∧ r.readPage q (r.documents s).length s = (.ok p, t) := by
  rw [project_eq, run_eq_ok_iff]

/-! ## One page -/

/-- Page `k` of size `n`, unless it is a later page than the only one. -/
theorem window_page {k : Nat} (hcount : (r.documents s).length ≤ Integer.countMax)
    (hsize : q.request.pageSize.toInt = n) (hn : 1 ≤ n) (hk : q.request.page.toInt = k) (hpos : 1 ≤ k)
    (hmany : n < (r.documents s).length ∨ k = 1) :
    (q.storeQuery (q.request.window (r.documents s).length)).window (r.documents s) =
      piece (r.documents s) n k := by
  by_cases hlt : n < (r.documents s).length
  · have hpage : max q.request.page.toInt.toNat 1 = k := by omega
    rw [PageRequest.window_of_lt hsize hn hlt, hpage]
    show ((r.documents s).drop (min ((k - 1) * n) Integer.countMax)).take n = _
    rw [PageRequest.drop_min_countMax hcount, piece]
  · obtain rfl : k = 1 := hmany.resolve_left hlt
    rw [PageRequest.window_of_not_lt (by omega), piece, Nat.sub_self, Nat.zero_mul, List.drop_zero,
      List.take_of_length_le (Nat.le_of_not_lt hlt)]
    rfl

theorem project_page_iff {k : Nat} (hcount : (r.documents s).length ≤ Integer.countMax)
    (hsize : q.request.pageSize.toInt = n) (hn : 1 ≤ n) (hk : q.request.page.toInt = k) (hpos : 1 ≤ k)
    (hmany : n < (r.documents s).length ∨ k = 1) :
    r.project q s = (.ok p, t) ↔ r.binding.bound = true ∧
      (piece (r.documents s) n k ≠ [] → q.selection.isMixed = false) ∧
      p = Page.ofDocuments (r.documents s).length (q.request.window (r.documents s).length)
        ((piece (r.documents s) n k).map q.selection.cut) q.strategy ∧ t = s := by
  rw [project_eq_ok_iff, readPage_eq_ok_iff, window_page hcount hsize hn hk hpos hmany]

/-- Whether the documents span more than one page of the size that is asked for. -/
def SpansPages (q : ProjectionQuery) (count : Nat) : Prop :=
  1 ≤ q.request.pageSize.toInt ∧ q.request.pageSize.toInt < count

/-- A page on which a limit was put holds no more documents than it says, whatever is there. -/
theorem readPage_of_spansPages {count : Nat} (h : r.readPage q count s = (.ok p, t))
    (hspans : SpansPages q count) : p.result.length ≤ p.pageSize := by
  obtain ⟨-, rfl, -⟩ := readPage_eq_ok_iff.1 h
  obtain ⟨n, hn⟩ := Int.eq_ofNat_of_zero_le (Int.le_trans (by decide) hspans.1)
  obtain ⟨hpos, hlt⟩ := hspans
  rw [Page.length_ofDocuments, List.length_map, PageRequest.window_of_lt hn (by omega) (by omega)]
  exact List.length_take_le _ _

/-- A page without a limit holds everything, and says that it holds what was counted. -/
theorem readPage_of_not_spansPages {count : Nat} (h : r.readPage q count s = (.ok p, t))
    (hspans : ¬SpansPages q count) : p.pageSize = count ∧ p.result.length = (r.documents s).length := by
  obtain ⟨-, rfl, -⟩ := readPage_eq_ok_iff.1 h
  rw [Page.length_ofDocuments, List.length_map, PageRequest.window_of_not_lt hspans]
  exact ⟨rfl, rfl⟩

/-- A page of a collection that stays as it is holds no more documents than it says. -/
theorem length_result_le (h : r.project q s = (.ok p, t)) : p.result.length ≤ p.pageSize := by
  obtain ⟨-, h⟩ := project_eq_ok_iff.1 h
  by_cases hspans : SpansPages q (r.documents s).length
  · exact readPage_of_spansPages h hspans
  · obtain ⟨hsize, hlength⟩ := readPage_of_not_spansPages h hspans
    rw [hsize, hlength]

/-! ## All pages -/

/-- If one of the pages can be read, the context is bound, and the selection is one that can be
applied, unless there is nothing to apply it to. -/
theorem of_project_ok {k : Nat} (hcount : (r.documents s).length ≤ Integer.countMax)
    (hsize : q.request.pageSize.toInt = n) (hn : 1 ≤ n) (hk : q.request.page.toInt = k) (hpos : 1 ≤ k)
    (hlast : k ≤ lastPage (r.documents s).length n) (hok : r.project q s = (.ok p, t)) :
    r.binding.bound = true ∧ (r.documents s ≠ [] → q.selection.isMixed = false) := by
  have hmany := lt_or_eq_one_of_le_lastPage hn hpos hlast
  obtain ⟨hbound, hmixed, -⟩ := (project_page_iff hcount hsize hn hk hpos hmany).1 hok
  refine ⟨hbound, fun hsome => hmixed ?_⟩
  have hstart := mul_lt_of_le_lastPage hn hlast (List.length_pos_iff.2 hsome)
  rw [piece, ← List.length_pos_iff, List.length_take, List.length_drop]
  omega

/-- What page `k` of size `n` of a repository shows. -/
def pageAt (r : Repository α) (q : ProjectionQuery) (s : Server) (n : Nat) (k : Int64) : Page :=
  Page.ofDocuments (r.documents s).length ((q.withPage k).request.window (r.documents s).length)
    ((piece (r.documents s) n k.toInt.toNat).map q.selection.cut) q.strategy

theorem project_eq_pageAt {k : Int64} (hcount : (r.documents s).length ≤ Integer.countMax)
    (hsize : q.request.pageSize.toInt = n) (hn : 1 ≤ n) (hpos : 1 ≤ k.toInt)
    (hmany : n < (r.documents s).length ∨ k.toInt = 1) (hbound : r.binding.bound = true)
    (hmixed : r.documents s ≠ [] → q.selection.isMixed = false) :
    r.project (q.withPage k) s = (.ok (r.pageAt q s n k), s) := by
  obtain ⟨m, hm⟩ := Int.eq_ofNat_of_zero_le (Int.le_trans (by decide) hpos)
  have hpage : (q.withPage k).request.page.toInt = m := hm
  have hsize' : (q.withPage k).request.pageSize.toInt = n := hsize
  have hnat : k.toInt.toNat = m := by omega
  refine (project_page_iff hcount hsize' hn hpage (by omega) (by omega)).2 ⟨hbound, fun h => ?_, ?_, rfl⟩
  · refine hmixed fun hempty => h ?_
    rw [hempty]
    simp [piece]
  · rw [pageAt, hnat]
    rfl

theorem contents_pageAt (r : Repository α) (q : ProjectionQuery) (s : Server) (n : Nat) (k : Int64) :
    List.Forall₂ List.Perm (r.pageAt q s n k).contents
      ((piece (r.documents s) n k.toInt.toNat).map fun d => q.strategy.fieldsOf (q.selection.cut d)) := by
  have hcontents := Page.ofDocuments_contents (r.documents s).length
    ((q.withPage k).request.window (r.documents s).length)
    ((piece (r.documents s) n k.toInt.toNat).map q.selection.cut) q.strategy
  rwa [List.map_map] at hcontents

/-- The pages from the first to the last are read, and together are the stored documents. -/
theorem project_pages (hcount : (r.documents s).length ≤ Integer.countMax)
    (hsize : q.request.pageSize.toInt = n) (hn : 1 ≤ n)
    (hlimit : lastPage (r.documents s).length n < Integer.int64Limit) (hbound : r.binding.bound = true)
    (hmixed : r.documents s ≠ [] → q.selection.isMixed = false) :
    ∃ pages selected,
      (List.range' 1 (lastPage (r.documents s).length n)).mapM
        (fun k => (r.project (q.withPage (Int64.ofNat k)) s).1) = .ok pages ∧
      (r.documents s).mapM q.selection.apply = .ok selected ∧
      List.Forall₂ List.Perm (pages.flatMap Page.contents) (selected.map q.strategy.fieldsOf) := by
  have hnumber {k : Nat} (hk : k ∈ List.range' 1 (lastPage (r.documents s).length n)) :
      1 ≤ k ∧ k ≤ lastPage (r.documents s).length n ∧ (Int64.ofNat k).toInt = k := by
    obtain ⟨hpos, hlt⟩ := List.mem_range'_1.1 hk
    exact ⟨hpos, by omega, Int64.toInt_ofNat_of_lt (Nat.lt_of_le_of_lt (by omega) hlimit)⟩
  refine ⟨(List.range' 1 (lastPage (r.documents s).length n)).map fun k => r.pageAt q s n (Int64.ofNat k),
    (r.documents s).map q.selection.cut, ?_, ?_, ?_⟩
  · rw [mapM_eq_ok_iff, List.forall₂_map_right_iff, List.forall₂_same]
    intro k hk
    obtain ⟨hpos, hlast, hk⟩ := hnumber hk
    have hmany := lt_or_eq_one_of_le_lastPage hn hpos hlast
    rw [project_eq_pageAt hcount hsize hn (by omega) (by omega) hbound hmixed]
  · exact (Selection.mapM_apply_eq_ok_iff (List.cons_ne_nil _ _)).2 ⟨hmixed, rfl⟩
  · have hcover := flatMap_piece (r.documents s) n (lastPage (r.documents s).length n)
    rw [List.take_of_length_le (count_le_lastPage_mul hn _)] at hcover
    have hselected : (r.documents s).map (q.strategy.fieldsOf ∘ q.selection.cut) =
        (List.range' 1 (lastPage (r.documents s).length n)).flatMap fun k =>
          (piece (r.documents s) n k).map (q.strategy.fieldsOf ∘ q.selection.cut) := by
      rw [← List.map_flatMap, hcover]
    rw [List.flatMap_map, List.map_map, hselected]
    refine forall₂_flatMap fun k hk => ?_
    have hcontents := r.contents_pageAt q s n (Int64.ofNat k)
    rwa [(hnumber hk).2.2] at hcontents

/-- After the last of several pages there is nothing. -/
theorem project_after_last {k : Int64} (hcount : (r.documents s).length ≤ Integer.countMax)
    (hsize : q.request.pageSize.toInt = n) (hn : 1 ≤ n) (hbound : r.binding.bound = true)
    (hmixed : r.documents s ≠ [] → q.selection.isMixed = false) (hmany : n < (r.documents s).length)
    (hk : lastPage (r.documents s).length n < k.toInt) :
    ∃ page, r.project (q.withPage k) s = (.ok page, s) ∧ page.result = [] := by
  refine ⟨_, project_eq_pageAt hcount hsize hn (by omega) (.inl hmany) hbound hmixed, ?_⟩
  have hcover := count_le_lastPage_mul hn (r.documents s).length
  have hafter : lastPage (r.documents s).length n ≤ k.toInt.toNat - 1 := by omega
  have hstart : (r.documents s).length ≤ (k.toInt.toNat - 1) * n :=
    Nat.le_trans hcover (Nat.mul_le_mul_right n hafter)
  rw [← List.length_eq_zero_iff, pageAt, Page.length_ofDocuments, piece, List.drop_eq_nil_of_le hstart,
    List.take_nil, List.map_nil, List.length_nil]

/-- **The pages of a collection that stays as it is are the collection.** A window shows exactly the
documents of the page that is meant, in unbounded integers, and never asks for none. So the pages
from the first to the last are read, if any of them can be: they hold no more documents than they
say, and together they hold the stored documents in their order, each once. What comes after the
last of several pages is empty.

The documents are as many as a count tells, and the last page is one that has a page number. -/
theorem pages_partition :
    (∀ {β : Type} (request : PageRequest) (q : ProjectionQuery) (xs : List β),
      xs.length ≤ Integer.countMax →
        let w := request.window xs.length
        ((w.page : Int), (w.pageSize : Int)) = request.normalised xs.length ∧
          (q.storeQuery w).window xs = pageOf w.page w.pageSize xs ∧ w.limit ≠ some 0) ∧
    ∀ {α : Type} {r : Repository α} {s : Server} {q : ProjectionQuery} {n : Nat},
      (r.documents s).length ≤ Integer.countMax → q.request.pageSize.toInt = n → 1 ≤ n →
      lastPage (r.documents s).length n < Integer.int64Limit →
      (∃ k page, 1 ≤ k ∧ k ≤ lastPage (r.documents s).length n ∧
        (r.project (q.withPage (Int64.ofNat k)) s).1 = .ok page) →
        (∃ pages selected,
          (List.range' 1 (lastPage (r.documents s).length n)).mapM
            (fun k => (r.project (q.withPage (Int64.ofNat k)) s).1) = .ok pages ∧
          (r.documents s).mapM q.selection.apply = .ok selected ∧
          List.Forall₂ List.Perm (pages.flatMap Page.contents) (selected.map q.strategy.fieldsOf)) ∧
        (∀ (k : Int64) page t, r.project (q.withPage k) s = (.ok page, t) →
          page.result.length ≤ page.pageSize ∧ t = s) ∧
        (n < (r.documents s).length → ∀ k : Int64, lastPage (r.documents s).length n < k.toInt →
          ∃ page, r.project (q.withPage k) s = (.ok page, s) ∧ page.result = []) := by
  refine ⟨fun request q xs hcount => PageRequest.window_exact request q hcount, ?_⟩
  intro α r s q n hcount hsize hn hlimit hread
  obtain ⟨k, page, hpos, hk, hok⟩ := hread
  have hnumber : (Int64.ofNat k).toInt = k := Int64.toInt_ofNat_of_lt (Nat.lt_of_le_of_lt hk hlimit)
  obtain ⟨hbound, hmixed⟩ := of_project_ok (q := q.withPage (Int64.ofNat k)) hcount hsize hn hnumber hpos hk
    (Prod.ext hok rfl)
  refine ⟨project_pages hcount hsize hn hlimit hbound hmixed, fun k page t h => ⟨length_result_le h, ?_⟩,
    fun hmany k hk => project_after_last hcount hsize hn hbound hmixed hmany hk⟩
  exact (readPage_eq_ok_iff.1 (project_eq_ok_iff.1 h).2).2.2

/-- Three slots on pages of two: the last page is the second, and shows the third slot. -/
theorem pages_partition_of_three_slots :
    let s := ["a", "b", "c"].foldl (fun s value => (slots.add ⟨none, .new, value⟩ s).2) .empty
    let q := (ProjectionQuery.empty.select "value" true).withPageSize 2
    lastPage (slots.documents s).length 2 = 2 ∧ ∃ pages selected,
      (List.range' 1 2).mapM (fun k => (slots.project (q.withPage (Int64.ofNat k)) s).1) = .ok pages ∧
      (slots.documents s).mapM q.selection.apply = .ok selected ∧ selected.length = 3 ∧
      List.Forall₂ List.Perm (pages.flatMap Page.contents) (selected.map q.strategy.fieldsOf) := by
  intro s q
  have hlength : (slots.documents s).length = 3 := by rfl
  have hlast : lastPage (slots.documents s).length 2 = 2 := by rw [hlength]; rfl
  have hcount : (slots.documents s).length ≤ Integer.countMax := by rw [hlength]; decide
  have hlimit : lastPage (slots.documents s).length 2 < Integer.int64Limit := by rw [hlast]; decide
  have hread : ∃ page, (slots.project (q.withPage (Int64.ofNat 1)) s).1 = .ok page := ⟨_, by rfl⟩
  obtain ⟨page, hpage⟩ := hread
  obtain ⟨⟨pages, selected, hpages, hselected, hcontents⟩, -, -⟩ :=
    pages_partition.2 (r := slots) (s := s) (q := q) (n := 2) hcount (by decide) (by decide) hlimit
      ⟨1, page, by decide, by rw [hlast]; decide, hpage⟩
  refine ⟨hlast, pages, selected, hlast ▸ hpages, hselected, ?_, hcontents⟩
  rw [← (mapM_eq_ok_iff.1 hselected).length_eq, hlength]

end Repository

end Docbase
