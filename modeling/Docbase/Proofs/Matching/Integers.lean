/-
Comparisons of integers. A field that holds an integer is compared with another as their doubles are,
and so as the integers are themselves, unless two different ones have one double
(`Predicate.integers_exact_iff`). They then answer as if they were the same, and no unique index tells
them apart.
-/
import Docbase.Proofs.Numeric.WholeNumber
import Docbase.Proofs.Store.Collection

namespace Docbase

/-- The integer that a value is, in either width. -/
def Value.integer? : Value → Option Int
  | .int32 i => some i.toInt
  | .int64 i => some i.toInt
  | _ => none

theorem Operand.ofValue_of_integer? {v : Value} {a : Int} (h : v.integer? = some a) :
    ofValue v = .number (.ofInt a) := by
  cases v with
  | int32 | int64 => cases h; rfl
  | _ => cases h

namespace Predicate

variable {textFields : List String} {d other : Document} {f : String} {v w : Value} {a b : Int}

/-- Whether comparing a field with a value answers what comparing two integers does. -/
structure DecidesIntegers (textFields : List String) (d : Document) (f : String) (v : Value) (a b : Int) :
    Prop where
  eq : (compare f .eq v).eval textFields d = .ok (decide (a = b))
  notEq : (compare f .notEq v).eval textFields d = .ok (decide (a ≠ b))
  gt : (compare f .gt v).eval textFields d = .ok (decide (a > b))
  gtEq : (compare f .gtEq v).eval textFields d = .ok (decide (a ≥ b))
  lt : (compare f .lt v).eval textFields d = .ok (decide (a < b))
  ltEq : (compare f .ltEq v).eval textFields d = .ok (decide (a ≤ b))

theorem decidesIntegers_of_ordering {x y : Double} (hx : d.operand? f = some (.number x))
    (hy : Operand.ofValue v = .number y) (h : x.ordering? y = some (Ord.compare a b)) :
    DecidesIntegers textFields d f v a b := by
  have hequals : Matching.equals (d.operand? f) (Operand.ofValue v) = decide (a = b) := by
    simp [hx, hy, Matching.equals, Operand.equal, Double.numEq, h]
  have hordered {accept : Ordering → Bool} {p : Prop} [Decidable p] (hp : accept (Ord.compare a b) = true ↔ p) :
      Matching.ordered accept (d.operand? f) (Operand.ofValue v) = decide p := by
    rw [Bool.eq_iff_iff, decide_eq_true_eq, ← hp]
    simp [hx, hy, Matching.ordered, Operand.ordering?, h]
  constructor
  case eq => exact congrArg Except.ok hequals
  case notEq => exact congrArg Except.ok (by rw [hequals, decide_not])
  case gt => exact congrArg Except.ok (hordered (by rw [Ordering.isGT_iff_eq_gt, compare_gt_iff_gt]))
  case gtEq => exact congrArg Except.ok (hordered Std.isGE_compare)
  case lt => exact congrArg Except.ok (hordered (by rw [Ordering.isLT_iff_eq_lt, compare_lt_iff_lt]))
  case ltEq => exact congrArg Except.ok (hordered Std.isLE_compare)

/-- Different integers with one double answer as if they were the same; all others as they compare. -/
theorem decidesIntegers (hw : d.lookup? f = some w) (ha : w.integer? = some a) (hb : v.integer? = some b) :
    (Double.ofInt a = Double.ofInt b → DecidesIntegers textFields d f v a a) ∧
      ((Double.ofInt a = Double.ofInt b → a = b) → DecidesIntegers textFields d f v a b) := by
  have hx : d.operand? f = some (.number (.ofInt a)) := by
    rw [Document.operand?, hw, Option.map_some, Operand.ofValue_of_integer? ha]
  have hy := Operand.ofValue_of_integer? hb
  have hcompare := Double.ordering?_ofInt a b
  constructor
  · intro hsame
    refine decidesIntegers_of_ordering hx hy ?_
    rw [hcompare, if_pos hsame, compare_eq_iff_eq.2 rfl]
  · intro h
    refine decidesIntegers_of_ordering hx hy ?_
    rw [hcompare]
    split
    · next hsame => rw [compare_eq_iff_eq.2 (h hsame)]
    · rfl

end Predicate

namespace Collection

variable {d other : Document} {f : String} {v w : Value} {a b : Int} {spec : IndexSpec}

/-- An index on one field takes two integers for the same iff their doubles are. -/
theorem agreesOn_integers (hf : spec.fieldNames = [f]) (hw : d.lookup? f = some w) (hv : other.lookup? f = some v)
    (ha : w.integer? = some a) (hb : v.integer? = some b) :
    agreesOn spec other d = true ↔ Double.ofInt a = Double.ofInt b := by
  have hequal : agreesOn spec other d = (Double.ofInt b).numEq (.ofInt a) := by
    simp [agreesOn, hf, Document.operand?, hw, hv, Operand.ofValue_of_integer? ha, Operand.ofValue_of_integer? hb,
      sameKey, Operand.equal]
  rw [hequal, Double.numEq_iff, ← Double.rank_ofInt_inj, eq_comm (a := (Double.ofInt a).rank)]
  exact ⟨fun h => h.2.2, fun h => ⟨Double.isNaN_ofRatio _ _ _, Double.isNaN_ofRatio _ _ _, h⟩⟩

/-- A document is accepted beside another, with integers in the field of a unique index, iff the
integers have different doubles. -/
theorem insert_integers (hunique : spec.isUnique = true) (hf : spec.fieldNames = [f]) (hid : sameId d other = false)
    (hw : d.lookup? f = some w) (hv : other.lookup? f = some v) (ha : w.integer? = some a)
    (hb : v.integer? = some b) (name : String) :
    (∃ c, Collection.insert ⟨[d], [spec]⟩ name other = .ok c) ↔ Double.ofInt a ≠ Double.ofInt b := by
  have hcollides : collides [spec] other d = agreesOn spec other d := by
    simp [collides, hid, hunique]
  rw [Ne, ← agreesOn_integers hf hw hv ha hb, ← hcollides, Bool.not_eq_true]
  simp [insert_eq_ok_iff]

end Collection

namespace Predicate

/-- **Comparisons of integers are exact unless two different ones have one double.** A number below
`2 ^ 53` in size has a double of its own. Different integers with one double answer as if they were the
same, and a unique index on the field refuses the one beside the other. -/
theorem integers_exact_iff (hw : d.lookup? f = some w) (ha : w.integer? = some a) (hb : v.integer? = some b) :
    (∀ textFields, DecidesIntegers textFields d f v a b ↔ (Double.ofInt a = Double.ofInt b → a = b)) ∧
      (∀ textFields, Double.ofInt a = Double.ofInt b → DecidesIntegers textFields d f v a a) ∧
      (a.natAbs < 2 ^ 53 ∨ b.natAbs < 2 ^ 53 → Double.ofInt a = Double.ofInt b → a = b) ∧
      ∀ (spec : IndexSpec) (other : Document), spec.isUnique = true → spec.fieldNames = [f] →
        other.lookup? f = some v → Collection.sameId d other = false → ∀ name,
          ((∃ c, Collection.insert ⟨[d], [spec]⟩ name other = .ok c) ↔ Double.ofInt a ≠ Double.ofInt b) := by
  refine ⟨fun textFields => ⟨fun h hsame => ?_, (decidesIntegers hw ha hb).2⟩,
    fun textFields => (decidesIntegers hw ha hb).1, Double.ofInt_injective, ?_⟩
  · have heq := h.eq
    rw [((decidesIntegers hw ha hb).1 hsame).eq, Except.ok.injEq, decide_eq_decide] at heq
    exact heq.1 rfl
  · intro spec other hunique hf hv hid name
    exact Collection.insert_integers hunique hf hid hw hv ha hb name

/-- An integer just below `2 ^ 53`, stored under a dotted name, against the next one and against a small
one of the other width. -/
theorem integers_exact_of_widths :
    let d : Document := [("_id", .int32 1), ("size", .document [("n", .int64 9007199254740991)])]
    d.lookup? "size.n" = some (.int64 9007199254740991) ∧
      DecidesIntegers [] d "size.n" (.int64 9007199254740992) 9007199254740991 9007199254740992 ∧
      DecidesIntegers [] d "size.n" (.int32 (-7)) 9007199254740991 (-7) := by
  intro d
  have hlookup : d.lookup? "size.n" = some (.int64 9007199254740991) := rfl
  obtain ⟨hlarge, -, hsmall, -⟩ :=
    integers_exact_iff (v := .int64 9007199254740992) (b := 9007199254740992) hlookup rfl rfl
  obtain ⟨hwidths, -, hsmall', -⟩ := integers_exact_iff (v := .int32 (-7)) (b := -7) hlookup rfl rfl
  exact ⟨hlookup, (hlarge []).2 (hsmall (.inl (by decide))), (hwidths []).2 (hsmall' (.inl (by decide)))⟩

/-- Two different integers have one double: a field with the one equals the other, and a unique index
on the field refuses it. -/
theorem integers_collapse :
    let d : Document := [("_id", .int32 1), ("n", .int64 9007199254740993)]
    let other : Document := [("_id", .int32 2), ("n", .int64 9007199254740992)]
    let spec : IndexSpec := ⟨"byN", [⟨"n", .ascending⟩], true, .standard⟩
    (eq "n" (.int64 9007199254740992)).eval [] d = .ok true ∧
      (compare "n" .gt (.int64 9007199254740992)).eval [] d = .ok false ∧
      (9007199254740993 : Int) ≠ 9007199254740992 ∧
      Collection.insert ⟨[d], [spec]⟩ "c" other = .error (.alreadyExists "2" "c") :=
  ⟨rfl, rfl, by decide, rfl⟩

end Predicate
end Docbase
