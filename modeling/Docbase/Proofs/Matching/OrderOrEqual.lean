/-
The inclusive ordering operators against the strict ones and equality. Only scalars are ordered, and only
fields that a document has; equality also holds for whole arrays and documents, and for null where the
field is missing. So `gteq` and `lteq` hold iff the strict operator does, or equality does with a value that
is neither an array nor a document in a field that is there (`Predicate.orEqual_iff`).
-/
import Docbase.Matching.Evaluate
import Docbase.Proofs.Value.NumericEquality

namespace Docbase

namespace Operand

/-- Operands that compare as equals are those that are equal and hold no others. -/
theorem ordering?_eq_some_eq_iff {x y : Operand} :
    x.ordering? y = some .eq ↔ x.equal y = true ∧ y.isFlat = true := by
  cases x with
  | array | map => cases y <;> simp [ordering?, equal, isFlat]
  | null => cases y <;> simp [ordering?, equal, isFlat]
  | bool a =>
    cases y with
    | bool b => cases a <;> cases b <;> decide
    | _ => simp [ordering?, equal]
  | number a =>
    cases y with
    | number b => simp [ordering?, equal, isFlat, Double.numEq]
    | _ => simp [ordering?, equal]
  | string a =>
    cases y with
    | string b => simp [ordering?, equal, isFlat]
    | _ => simp [ordering?, equal]
  | date a =>
    cases y with
    | date b => simp [ordering?, equal, isFlat, Int64.toInt_inj]
    | _ => simp [ordering?, equal]
  | objectId a =>
    cases y with
    | objectId b => simp [ordering?, equal, isFlat, BitVec.toNat_inj]
    | _ => simp [ordering?, equal]

/-- Whether an operand stands in an accepted order to another. -/
def accepts (accept : Ordering → Bool) (x y : Operand) : Bool := ((x.ordering? y).map accept).getD false

theorem accepts_iff {accept : Ordering → Bool} {x y : Operand} :
    x.accepts accept y = true ↔ ∃ o, x.ordering? y = some o ∧ accept o = true := by
  cases h : x.ordering? y <;> simp [accepts, h]

variable {strict orEqual : Ordering → Bool}

theorem accepts_orEqual_iff (h : ∀ o, orEqual o = true ↔ strict o = true ∨ o = .eq) {x y : Operand} :
    x.accepts orEqual y = true ↔ x.accepts strict y = true ∨ (x.equal y = true ∧ y.isFlat = true) := by
  rw [← ordering?_eq_some_eq_iff, accepts_iff, accepts_iff]
  simp only [h, and_or_left, exists_or, exists_eq_right]

theorem isFlat_of_accepts {accept : Ordering → Bool} {x y : Operand} (h : x.accepts accept y = true) :
    y.isFlat = true := by
  obtain ⟨o, ho, -⟩ := accepts_iff.1 h
  cases y with
  | array | map => cases x <;> cases ho
  | _ => rfl

end Operand

namespace Matching

variable {strict orEqual : Ordering → Bool}

theorem ordered_array {accept : Ordering → Bool} {items : List Operand} {y : Operand} :
    ordered accept (some (.array items)) y = true ↔ ∃ item ∈ items, item.accepts accept y = true :=
  List.any_eq_true

theorem ordered_of_not_array {accept : Ordering → Bool} {x : Operand} (hx : ∀ items, x ≠ .array items)
    (y : Operand) : ordered accept (some x) y = x.accepts accept y := by
  cases x with
  | array items => exact absurd rfl (hx items)
  | _ => rfl

theorem equals_array {items : List Operand} {y : Operand} (hy : y.isFlat = true) :
    equals (some (.array items)) y = true ↔ ∃ item ∈ items, item.equal y = true := by
  have hwhole : (Operand.array items).equal y = false := by
    rw [← Bool.not_eq_true]
    intro h
    rw [← Operand.isFlat_eq_of_equal h] at hy
    cases hy
  rw [equals, hwhole, Bool.false_or, List.any_eq_true]

theorem equals_of_not_array {x : Operand} (hx : ∀ items, x ≠ .array items) (y : Operand) :
    equals (some x) y = x.equal y := by
  cases x with
  | array items => exact absurd rfl (hx items)
  | _ => exact Bool.or_false _

theorem isFlat_of_ordered {accept : Ordering → Bool} {actual : Option Operand} {y : Operand}
    (h : ordered accept actual y = true) : actual ≠ none ∧ y.isFlat = true := by
  cases actual with
  | none => cases h
  | some x =>
    refine ⟨Option.some_ne_none x, ?_⟩
    cases x with
    | array items =>
      obtain ⟨item, -, hitem⟩ := ordered_array.1 h
      exact Operand.isFlat_of_accepts hitem
    | _ => exact Operand.isFlat_of_accepts h

/-- An order that also accepts equals is the strict one, or equality with an operand that holds no others. -/
theorem ordered_orEqual_iff (h : ∀ o, orEqual o = true ↔ strict o = true ∨ o = .eq) {actual : Option Operand}
    {y : Operand} : ordered orEqual actual y = true ↔
      ordered strict actual y = true ∨ (equals actual y = true ∧ actual ≠ none ∧ y.isFlat = true) := by
  cases actual with
  | none => simp [ordered]
  | some x =>
    have hpresent : some x ≠ none := Option.some_ne_none x
    by_cases hx : ∃ items, x = .array items
    · obtain ⟨items, rfl⟩ := hx
      rw [ordered_array, ordered_array]
      simp only [Operand.accepts_orEqual_iff h, and_or_left, exists_or]
      refine or_congr_right ?_
      constructor
      · rintro ⟨item, hitem, hequal, hy⟩
        exact ⟨(equals_array hy).2 ⟨item, hitem, hequal⟩, hpresent, hy⟩
      · rintro ⟨hequals, -, hy⟩
        obtain ⟨item, hitem, hequal⟩ := (equals_array hy).1 hequals
        exact ⟨item, hitem, hequal, hy⟩
    · rw [not_exists] at hx
      rw [ordered_of_not_array hx, ordered_of_not_array hx, equals_of_not_array hx, Operand.accepts_orEqual_iff h,
        and_iff_right hpresent]

end Matching

/-- Whether a field can stand in an order to a value: it is there, and the value is neither an array nor a
document. -/
def Document.IsOrderable (d : Document) (f : String) (v : Value) : Prop := d.lookup? f ≠ none ∧ v.isLeaf = true

namespace Predicate

variable {textFields : List String} {d : Document} {f : String} {v : Value}

theorem isOrderable_iff : d.IsOrderable f v ↔ d.operand? f ≠ none ∧ (Operand.ofValue v).isFlat = true := by
  rw [Document.IsOrderable, Operand.isFlat_ofValue, Document.operand?, Ne, Ne, Option.map_eq_none_iff]

theorem eval_gtEq_iff : (compare f .gtEq v).eval textFields d = .ok true ↔
    (compare f .gt v).eval textFields d = .ok true ∨ ((eq f v).eval textFields d = .ok true ∧ d.IsOrderable f v) := by
  simp only [eq, eval, Matching.compare, Except.ok.injEq, isOrderable_iff]
  exact Matching.ordered_orEqual_iff fun o => by cases o <;> decide

theorem eval_ltEq_iff : (compare f .ltEq v).eval textFields d = .ok true ↔
    (compare f .lt v).eval textFields d = .ok true ∨ ((eq f v).eval textFields d = .ok true ∧ d.IsOrderable f v) := by
  simp only [eq, eval, Matching.compare, Except.ok.injEq, isOrderable_iff]
  exact Matching.ordered_orEqual_iff fun o => by cases o <;> decide

theorem isOrderable_of_gt (h : (compare f .gt v).eval textFields d = .ok true) : d.IsOrderable f v :=
  isOrderable_iff.2 (Matching.isFlat_of_ordered (Except.ok.inj h))

theorem isOrderable_of_lt (h : (compare f .lt v).eval textFields d = .ok true) : d.IsOrderable f v :=
  isOrderable_iff.2 (Matching.isFlat_of_ordered (Except.ok.inj h))

/-- **The inclusive ordering operators hold iff the strict ones do, or equality does with a value that is
neither an array nor a document in a field that is there.** So for a document, a field and a value each of
them is the strict operator or equality, unless equality holds for a missing field, an array or a document. -/
theorem orEqual_iff (textFields : List String) (d : Document) (f : String) (v : Value) :
    let holds (op : Comparison) := (compare f op v).eval textFields d = .ok true
    (holds .gtEq ↔ holds .gt ∨ (holds .eq ∧ d.IsOrderable f v)) ∧
      (holds .ltEq ↔ holds .lt ∨ (holds .eq ∧ d.IsOrderable f v)) ∧
      ((holds .gtEq ↔ holds .gt ∨ holds .eq) ↔ (holds .eq → d.IsOrderable f v)) ∧
      ((holds .ltEq ↔ holds .lt ∨ holds .eq) ↔ (holds .eq → d.IsOrderable f v)) := by
  have hcontains {orEqual strict equal : Prop} (h : orEqual ↔ strict ∨ (equal ∧ d.IsOrderable f v))
      (hstrict : strict → d.IsOrderable f v) :
      (orEqual ↔ strict ∨ equal) ↔ (equal → d.IsOrderable f v) := by
    rw [h]
    tauto
  exact ⟨eval_gtEq_iff, eval_ltEq_iff, hcontains eval_gtEq_iff isOrderable_of_gt,
    hcontains eval_ltEq_iff isOrderable_of_lt⟩

/-- Equality holds for a whole array and for null in a missing field, and no ordering operator does. -/
theorem equality_without_order :
    let d : Document := [("_id", .int32 1), ("tags", .array [.int32 1, .int32 2])]
    let tags : Value := .array [.int32 1, .int32 2]
    let holds (f : String) (op : Comparison) (v : Value) := (compare f op v).eval [] d = .ok true
    (holds "tags" .eq tags ∧ ¬(holds "tags" .gtEq tags ↔ holds "tags" .gt tags ∨ holds "tags" .eq tags)) ∧
      holds "size" .eq .null ∧ ¬(holds "size" .ltEq .null ↔ holds "size" .lt .null ∨ holds "size" .eq .null) := by
  intro d tags holds
  refine ⟨⟨rfl, fun h => ?_⟩, rfl, fun h => ?_⟩
  · cases h.2 (.inr rfl)
  · cases h.2 (.inr rfl)

end Predicate
end Docbase
