/-
Which documents a page shows. In unbounded integers that are the documents from
position `(page - 1) * size` up to position `page * size` (`pageOf`), for the page
and the size that the request means (`PageRequest.normalised`). The window of a
request shows exactly these (`window_exact`): where its product is cut off at the
largest count, both pass over everything there is.
-/
import Docbase.Page
import Mathlib.Data.Int.Order.Basic

namespace Docbase

variable {α : Type}

/-- The page and the page size that a request means for a number of documents. -/
def PageRequest.normalised (r : PageRequest) (count : Nat) : Int × Int :=
  let size := if 1 ≤ r.pageSize.toInt then r.pageSize.toInt else count
  if size < count then (max r.page.toInt 1, size) else (1, count)

/-- The items of a page, by their positions. -/
def pageOf (page size : Int) (xs : List α) : List α :=
  (xs.zipIdx.filter fun p => (page - 1) * size ≤ p.2 && p.2 < page * size).map Prod.fst

/-! ## Positions -/

/-- The items between two positions, the first item being at `k`. -/
theorem filter_zipIdx (xs : List α) (k a b : Nat) :
    ((xs.zipIdx k).filter fun p => a ≤ p.2 && p.2 < b).map Prod.fst = (xs.drop (a - k)).take (b - max a k) := by
  induction xs generalizing k with
  | nil => simp
  | cons x xs ih =>
    rw [List.zipIdx_cons, List.filter_cons]
    by_cases hbefore : k < a
    · have hdrop : a - k = (a - (k + 1)) + 1 := by omega
      have hmax : max a k = max a (k + 1) := by omega
      have hnot : ¬a ≤ k := by omega
      simp only [hnot, decide_false, Bool.false_and, Bool.false_eq_true, if_false, ih]
      rw [hdrop, List.drop_succ_cons, hmax]
    · have hdrop : a - k = 0 := by omega
      have hdrop' : a - (k + 1) = 0 := by omega
      have hle : a ≤ k := by omega
      have hmax : max a k = k := by omega
      have hmax' : max a (k + 1) = k + 1 := by omega
      rw [hdrop, List.drop_zero, hmax]
      by_cases hinside : k < b
      · have htake : b - k = (b - (k + 1)) + 1 := by omega
        simp only [hle, hinside, decide_true, Bool.and_self, if_true, List.map_cons, ih]
        rw [hdrop', List.drop_zero, hmax', htake, List.take_succ_cons]
      · have htake : b - k = 0 := by omega
        have htake' : b - (k + 1) = 0 := by omega
        simp only [hinside, decide_false, Bool.and_false, Bool.false_eq_true, if_false, ih]
        rw [hmax', htake, htake', List.take_zero, List.take_zero]

/-- The items of a page as a piece of the list. -/
theorem pageOf_eq (page size : Nat) (xs : List α) :
    pageOf (page + 1 : Nat) size xs = (xs.drop (page * size)).take size := by
  have hfilter := filter_zipIdx xs 0 (page * size) ((page + 1) * size)
  have hlength : (page + 1) * size - max (page * size) 0 = size := by
    rw [Nat.max_zero, Nat.succ_mul, Nat.add_sub_cancel_left]
  rw [hlength, Nat.sub_zero] at hfilter
  rw [← hfilter, pageOf]
  refine congrArg (List.map Prod.fst) (List.filter_congr fun p _ => ?_)
  have hlow : ((page + 1 : Nat) - 1 : Int) * size = ((page * size : Nat) : Int) := by
    rw [Int.natCast_add, Int.natCast_one, Int.add_sub_cancel, Int.natCast_mul]
  have hhigh : ((page + 1 : Nat) : Int) * size = (((page + 1) * size : Nat) : Int) := by
    rw [Int.natCast_mul]
  rw [hlow, hhigh]
  simp only [Int.ofNat_le, Int.ofNat_lt]

/-! ## Windows -/

namespace PageRequest

variable {r : PageRequest} {count : Nat}

/-- A request for pages of fewer documents than there are. -/
theorem window_of_lt {n : Nat} (hn : r.pageSize.toInt = n) (hpos : 1 ≤ n) (hlt : n < count) :
    r.window count = ⟨max r.page.toInt.toNat 1, n,
      some (min ((max r.page.toInt.toNat 1 - 1) * n) Integer.countMax), some n⟩ := by
  have hsize : 1 ≤ r.pageSize.toInt := by omega
  have hnat : r.pageSize.toInt.toNat = n := by omega
  simp only [window, if_pos hsize, hnat, if_pos hlt]

/-- A request for everything, or for pages that hold everything. -/
theorem window_of_not_lt (h : ¬(1 ≤ r.pageSize.toInt ∧ r.pageSize.toInt < count)) :
    r.window count = ⟨1, count, none, none⟩ := by
  unfold window
  dsimp only
  rw [if_neg]
  split
  · omega
  · exact Nat.lt_irrefl count

/-- Passing over as many items as a count can tell passes over all of them. -/
theorem drop_min_countMax {xs : List α} (hcount : xs.length ≤ Integer.countMax) (n : Nat) :
    xs.drop (min n Integer.countMax) = xs.drop n := by
  by_cases hn : n ≤ Integer.countMax
  · rw [Nat.min_eq_left hn]
  · have hlarge : Integer.countMax ≤ n := Nat.le_of_not_le hn
    rw [Nat.min_eq_right hlarge, List.drop_eq_nil_of_le hcount,
      List.drop_eq_nil_of_le (Nat.le_trans hcount hlarge)]

/-- **A window shows exactly the page that is meant.** -/
theorem window_exact (r : PageRequest) (q : ProjectionQuery) {xs : List α}
    (hcount : xs.length ≤ Integer.countMax) :
    (((r.window xs.length).page : Int), ((r.window xs.length).pageSize : Int)) = r.normalised xs.length ∧
      (q.storeQuery (r.window xs.length)).window xs =
        pageOf (r.window xs.length).page (r.window xs.length).pageSize xs ∧
      (r.window xs.length).limit ≠ some 0 := by
  by_cases h : 1 ≤ r.pageSize.toInt ∧ r.pageSize.toInt < xs.length
  · obtain ⟨n, hn⟩ := Int.eq_ofNat_of_zero_le (Int.le_trans (by decide) h.1)
    have hpos : 1 ≤ n := by omega
    have hlt : n < xs.length := by omega
    obtain ⟨k, hk⟩ : ∃ k, max r.page.toInt.toNat 1 = k + 1 := ⟨max r.page.toInt.toNat 1 - 1, by omega⟩
    have hpage : ((k + 1 : Nat) : Int) = max r.page.toInt 1 := by omega
    rw [window_of_lt hn hpos hlt, hk]
    refine ⟨?_, ?_, fun hzero => ?_⟩
    · have hsize : (if 1 ≤ r.pageSize.toInt then r.pageSize.toInt else xs.length) = n := by
        rw [if_pos h.1, hn]
      have hfew : (n : Int) < xs.length := by omega
      simp only [normalised, hsize, if_pos hfew, hpage]
    · rw [pageOf_eq]
      show (xs.drop (min ((k + 1 - 1) * n) Integer.countMax)).take n = _
      rw [drop_min_countMax hcount, Nat.add_sub_cancel]
    · have hn0 : n = 0 := Option.some.inj hzero
      omega
  · rw [window_of_not_lt h]
    refine ⟨?_, ?_, nofun⟩
    · unfold normalised
      dsimp only
      rw [if_neg]
      · rfl
      · split
        · omega
        · exact Int.lt_irrefl _
    · have hpage := pageOf_eq 0 xs.length xs
      rw [Nat.zero_mul, List.drop_zero, List.take_length] at hpage
      exact hpage.symm

end PageRequest

end Docbase
