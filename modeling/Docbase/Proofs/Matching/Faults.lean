/-
The faults of a predicate: a membership test without a list, and a text search where
no field is indexed for it. They lie in the leaves, and a leaf is seen only where the
connectors above it look at it (`Predicate.looked`), so that testing a document fails
iff a leaf that is looked at there is at fault: `Predicate.eval_eq_error_iff`.
-/
import Docbase.Proofs.OperatorFilter.Meaning

namespace Docbase

/-- Whether an error is one that is met in testing a document. -/
def Error.IsOfTest (e : Error) : Prop := e = .store .membershipOverScalar ∨ e = .store .textIndexMissing

/-- The answer of its left side for which a connector looks at its right side. -/
def Connector.openAt : Connector → Bool
  | .and => true
  | .or => false

theorem Matching.compare_eq_error_iff {actual : Option Operand} {op : Comparison} {v : Value} {e : Error} :
    Matching.compare actual op v = .error e ↔
      Predicate.admits op v = false ∧ .store .membershipOverScalar = e := by
  cases hadmits : Predicate.admits op v with
  | true =>
    obtain ⟨answer, hanswer⟩ := Predicate.compare_of_admits hadmits actual
    simp [hanswer]
  | false =>
    obtain ⟨rfl | rfl, hv⟩ := Predicate.admits_eq_false_iff.1 hadmits
    all_goals cases v <;> simp_all [Matching.compare]

namespace Predicate

variable {textFields : List String} {d : Document}

theorem eval_combine (k : Connector) (left right : Predicate) :
    (combine k left right).eval textFields d =
      match left.eval textFields d with
      | .error e => .error e
      | .ok answer => if answer = k.openAt then right.eval textFields d else .ok answer := by
  cases k with
  | and | or =>
    rw [eval]
    cases left.eval textFields d with
    | error e => rfl
    | ok answer => cases answer <;> rfl

theorem eval_text (hfields : textFields ≠ []) (d : Document) (search : String) :
    (text search).eval textFields d = .ok (Matching.searches textFields d search) :=
  if_neg (by simpa using hfields)

/-- What is wrong with a leaf, whatever the document. -/
def fault? (textFields : List String) : Predicate → Option Error
  | .compare _ op v => if admits op v then none else some (.store .membershipOverScalar)
  | .text _ => if textFields.isEmpty then some (.store .textIndexMissing) else none
  | .combine _ _ _ => none

theorem fault?_isOfTest {leaf : Predicate} {e : Error} (h : leaf.fault? textFields = some e) :
    e.IsOfTest := by
  cases leaf with
  | compare field op v =>
    rw [fault?] at h
    split at h
    · cases h
    · cases h; exact .inl rfl
  | text search =>
    rw [fault?] at h
    split at h
    · cases h; exact .inr rfl
    · cases h
  | combine k left right => cases h

/-- The leaf that is looked at first. -/
def first : Predicate → Predicate
  | .combine _ left _ => left.first
  | leaf => leaf

/-- The leaves that are looked at in testing a document, in order. -/
def looked (textFields : List String) (d : Document) : Predicate → List Predicate
  | .combine k left right =>
    left.looked textFields d ++
      match left.eval textFields d with
      | .error _ => []
      | .ok answer => if answer = k.openAt then right.looked textFields d else []
  | leaf => [leaf]

theorem first_mem_looked (p : Predicate) : p.first ∈ p.looked textFields d := by
  induction p with
  | compare | text => exact List.mem_singleton_self _
  | combine k left right ihl => exact List.mem_append_left _ ihl

theorem looked_subset_leaves (p : Predicate) : p.looked textFields d ⊆ p.leaves := by
  induction p with
  | compare | text => exact List.Subset.refl _
  | combine k left right ihl ihr =>
    refine List.append_subset.2 ⟨List.subset_append_of_subset_left _ ihl, ?_⟩
    split
    · exact List.nil_subset _
    · split
      · exact List.subset_append_of_subset_right _ ihr
      · exact List.nil_subset _

/-- **Testing a document fails with the fault of a leaf that is looked at.** -/
theorem eval_eq_error_iff {p : Predicate} {e : Error} : p.eval textFields d = .error e ↔
    ∃ leaf ∈ p.looked textFields d, leaf.fault? textFields = some e := by
  induction p with
  | compare field op v =>
    simp only [eval, looked, List.mem_singleton, exists_eq_left, fault?, Matching.compare_eq_error_iff]
    split <;> simp_all
  | text search =>
    simp only [eval, looked, List.mem_singleton, exists_eq_left, fault?]
    split <;> simp
  | combine k left right ihl ihr =>
    -- where the left side has an answer, no leaf of it is at fault
    simp only [eval_combine, looked, List.mem_append, or_and_right, exists_or, ← ihl]
    cases left.eval textFields d with
    | error e' => simp
    | ok answer =>
      dsimp only
      split
      · simp [ihr]
      · simp

theorem eval_isOfTest {p : Predicate} {e : Error} (h : p.eval textFields d = .error e) : e.IsOfTest := by
  obtain ⟨leaf, -, hfault⟩ := eval_eq_error_iff.1 h
  exact fault?_isOfTest hfault

end Predicate
end Docbase
