/-
The order in which values are sorted. Off NaN it compares the ranks of two kinds
and, for two values of one kind, a whole number or a text (`sortOrdering_eq`); so
it is a total preorder there (`sortOrdering_preorder`). NaN goes by rank alone, even
among numbers (`sortOrdering_of_isNaN`): it ties with numbers that do not tie.
-/
import Docbase.Matching.Operand
import Docbase.Proofs.Numeric.Double

namespace Docbase

/-- Whether a value is NaN itself; an array with such an item is not. -/
def Value.isNaN : Value → Bool
  | .double x => x.isNaN
  | _ => false

namespace Operand

/-- Whether an operand is NaN itself; an array with such an item is not. -/
def isNaN : Operand → Bool
  | .number x => x.isNaN
  | _ => false

/-- The whole number that orders an operand among those of its kind. -/
def place : Operand → Int
  | .bool b => b.toNat
  | .number x => x.rank
  | .date ms => ms.toInt
  | .objectId id => id.toNat
  | _ => 0

/-- The text that orders an operand among those of its kind. -/
def spelling : Operand → String
  | .string s => s
  | _ => ""

/-- Comparison by rank, then by place, then by spelling. -/
def weigh : Operand → Operand → Ordering :=
  compareLex (compareOn rank) (compareLex (compareOn place) (compareOn spelling))

variable {a b c : Operand}

/-- Integers are rounded, and what is rounded is a number. -/
theorem isNaN_ofValue (v : Value) : (ofValue v).isNaN = v.isNaN := by
  cases v with
  | int32 | int64 => exact Double.isNaN_ofRatio _ _ _
  | _ => rfl

theorem weigh_of_rank_ne (h : a.rank ≠ b.rank) : a.weigh b = compare a.rank b.rank := by
  have hne : compare a.rank b.rank ≠ .eq := by simpa using h
  rw [weigh, compareLex, compareOn]
  cases hranks : compare a.rank b.rank with
  | eq => exact absurd hranks hne
  | lt | gt => rfl

theorem weigh_of_rank_eq (h : a.rank = b.rank) :
    a.weigh b = (compare a.place b.place).then (compare a.spelling b.spelling) := by
  simp [weigh, compareLex, compareOn, h]

/-- Only operands of one kind are ordered. -/
theorem ordering?_of_rank_ne (h : a.rank ≠ b.rank) : a.ordering? b = none := by
  cases a <;> cases b <;> first | rfl | exact absurd rfl h

/-- Different kinds are sorted by rank alone. -/
theorem sortOrdering_of_rank_ne (h : a.rank ≠ b.rank) : a.sortOrdering b = compare a.rank b.rank := by
  rw [sortOrdering, ordering?_of_rank_ne h, Option.getD_none]

/-- One kind is sorted by value, and ties throughout if it has no order. -/
theorem sortOrdering_of_rank_eq (h : a.rank = b.rank) : a.sortOrdering b = (a.ordering? b).getD .eq := by
  rw [sortOrdering, Nat.compare_eq_eq.2 h]

/-- NaN is compared by rank alone, so that it ties with every number. -/
theorem sortOrdering_of_isNaN (h : a.isNaN = true) (b : Operand) :
    a.sortOrdering b = compare a.rank b.rank := by
  cases a with
  | number x =>
    have hx : x.isNaN = true := h
    cases b <;> simp [sortOrdering, ordering?, Double.ordering?, hx]
  | _ => cases h

theorem compare_natCast (m n : Nat) : compare (m : Int) (n : Int) = compare m n := by
  simp only [compare, compareOfLessAndEq, Int.ofNat_lt, Int.natCast_inj]

/-- **Off NaN, operands are sorted by what they weigh.** -/
theorem sortOrdering_eq (ha : a.isNaN = false) (hb : b.isNaN = false) : a.sortOrdering b = a.weigh b := by
  by_cases hrank : a.rank = b.rank
  · rw [weigh_of_rank_eq hrank]
    cases a with
    | null => cases b <;> first | rfl | cases hrank
    | map | array => cases b <;> first | rfl | cases hrank
    | bool x =>
      cases b with
      | bool y => simp [sortOrdering, ordering?, place, spelling, compare_natCast]
      | _ => cases hrank
    | number x =>
      cases b with
      | number y =>
        have hx : x.isNaN = false := ha
        have hy : y.isNaN = false := hb
        simp [sortOrdering, ordering?, Double.ordering?, hx, hy, place, spelling]
      | _ => cases hrank
    | string x =>
      cases b with
      | string y => simp [sortOrdering, ordering?, place, spelling]
      | _ => cases hrank
    | date x =>
      cases b with
      | date y => simp [sortOrdering, ordering?, place, spelling]
      | _ => cases hrank
    | objectId x =>
      cases b with
      | objectId y => simp [sortOrdering, ordering?, place, spelling, compare_natCast]
      | _ => cases hrank
  · rw [weigh_of_rank_ne hrank, sortOrdering_of_rank_ne hrank]

/-! Everything has a weight, so that comparing by weight is a total preorder on all operands. -/

instance : Std.TransCmp weigh := inferInstanceAs (Std.TransCmp (compareLex _ _))

theorem weigh_swap (a b : Operand) : a.weigh b = (b.weigh a).swap := Std.OrientedCmp.eq_swap

theorem weigh_total (a b : Operand) : ((a.weigh b).isLE || (b.weigh a).isLE) = true := by
  rw [weigh_swap b a]
  cases a.weigh b <;> rfl

/-- **Off NaN the sort order is a total preorder.** Every value ties with itself, exchanging two values
reverses how they compare, and one of two values is at most the other. Being at most, being less and tying
are transitive, whatever the kinds of the three values are. Values of different kinds go by the ranks of
their kinds alone; values of one kind go by their order, and tie if their kind has none. -/
theorem sortOrdering_preorder {u v w : Value} (hu : u.isNaN = false) (hv : v.isNaN = false)
    (hw : w.isNaN = false) :
    let a := ofValue u
    let b := ofValue v
    let c := ofValue w
    a.sortOrdering a = .eq ∧
      a.sortOrdering b = (b.sortOrdering a).swap ∧
      ((a.sortOrdering b).isLE = true ∨ (b.sortOrdering a).isLE = true) ∧
      ((a.sortOrdering b).isLE = true → (b.sortOrdering c).isLE = true → (a.sortOrdering c).isLE = true) ∧
      (a.sortOrdering b = .lt → b.sortOrdering c = .lt → a.sortOrdering c = .lt) ∧
      (a.sortOrdering b = .eq → b.sortOrdering c = .eq → a.sortOrdering c = .eq) ∧
      (a.rank ≠ b.rank → a.sortOrdering b = compare a.rank b.rank) ∧
      (a.rank = b.rank → a.sortOrdering b = (a.ordering? b).getD .eq) := by
  intro a b c
  have ha : a.isNaN = false := (isNaN_ofValue u).trans hu
  have hb : b.isNaN = false := (isNaN_ofValue v).trans hv
  have hc : c.isNaN = false := (isNaN_ofValue w).trans hw
  have hab := sortOrdering_eq ha hb
  have hba := sortOrdering_eq hb ha
  have hbc := sortOrdering_eq hb hc
  have hac := sortOrdering_eq ha hc
  refine ⟨?_, ?_, ?_, ?_, ?_, ?_, sortOrdering_of_rank_ne, sortOrdering_of_rank_eq⟩
  · rw [sortOrdering_eq ha ha]
    exact Std.ReflCmp.compare_self
  · rw [hab, hba]
    exact weigh_swap a b
  · rw [hab, hba, ← Bool.or_eq_true]
    exact weigh_total a b
  · rw [hab, hbc, hac]
    exact Std.TransCmp.isLE_trans
  · rw [hab, hbc, hac]
    exact Std.TransCmp.lt_trans
  · rw [hab, hbc, hac]
    exact Std.TransCmp.eq_trans

/-- An integer, a double above it, and an array with NaN as an item, which is not NaN itself: the integer
stands before the array. -/
theorem sortOrdering_preorder_of_numbers_and_array :
    let u : Value := .int64 3
    let v : Value := .double ⟨0x400C000000000000⟩
    let w : Value := .array [.double ⟨0x7FF8000000000000⟩]
    u.isNaN = false ∧ v.isNaN = false ∧ w.isNaN = false ∧
      (ofValue u).sortOrdering (ofValue v) = .lt ∧ (ofValue v).sortOrdering (ofValue w) = .lt ∧
      (ofValue u).sortOrdering (ofValue w) = .lt := by
  intro u v w
  have hu : u.isNaN = false := rfl
  have hv : v.isNaN = false := by decide
  have hw : w.isNaN = false := rfl
  obtain ⟨-, -, -, -, htrans, -, -, hsame⟩ := sortOrdering_preorder hu hv hw
  obtain ⟨-, -, -, -, -, -, hother, -⟩ := sortOrdering_preorder hv hw hw
  have huv : (ofValue u).sortOrdering (ofValue v) = .lt := by
    rw [hsame rfl]
    decide
  have hvw : (ofValue v).sortOrdering (ofValue w) = .lt := hother (by decide)
  exact ⟨hu, hv, hw, huv, hvw, htrans huv hvw⟩

end Operand
end Docbase
