/-
The truth of a predicate on a document. Connectors look at their right side only where the left leaves the
answer open, and a leaf may be at fault. Where every membership test has a list and there are fields for
texts, no leaf is, and testing gives the Boolean value of the tree over what its leaves say by themselves
(`Predicate.eval_eq_truth`). That value does not depend on the order of the sides of a join, so neither does
testing (`Predicate.Exchanged.eval_eq`). With what negated operators and membership say, which hold of every
operand, these are the laws of `Predicate.eval_classical`.
-/
import Docbase.Proofs.Matching.Faults

namespace Docbase.Predicate

variable {textFields : List String} {d : Document} {p q : Predicate} {answer : Predicate → Bool}

/-! ## Trees over their leaves -/

/-- The Boolean value of a tree, given what its leaves say. -/
def truth (answer : Predicate → Bool) : Predicate → Bool
  | .combine .and left right => left.truth answer && right.truth answer
  | .combine .or left right => left.truth answer || right.truth answer
  | leaf => answer leaf

/-- Testing a tree whose leaves all have answers gives its Boolean value. -/
theorem eval_eq_truth (h : ∀ leaf ∈ p.leaves, leaf.eval textFields d = .ok (answer leaf)) :
    p.eval textFields d = .ok (p.truth answer) := by
  induction p with
  | compare | text => exact h _ (List.mem_singleton_self _)
  | combine k left right ihl ihr =>
    simp only [leaves, List.forall_mem_append] at h
    simp only [eval_combine, ihl h.1, ihr h.2]
    cases k with
    | and | or => cases hl : left.truth answer <;> simp [truth, Connector.openAt, hl]

/-- Whether every membership test of a tree has a list. -/
def TestsLists (p : Predicate) : Prop :=
  ∀ field op v, compare field op v ∈ p.leaves → op = .isIn ∨ op = .notIn → ∃ items, v = .array items

theorem testsLists_combine_iff {k : Connector} {left right : Predicate} :
    (combine k left right).TestsLists ↔ left.TestsLists ∧ right.TestsLists := by
  constructor
  · intro h
    exact ⟨fun field op v hleaf => h field op v (List.mem_append_left _ hleaf),
      fun field op v hleaf => h field op v (List.mem_append_right _ hleaf)⟩
  · intro ⟨hleft, hright⟩ field op v hleaf
    rcases List.mem_append.1 hleaf with hleaf | hleaf
    · exact hleft field op v hleaf
    · exact hright field op v hleaf

theorem TestsLists.admits {field : String} {op : Comparison} {v : Value}
    (hp : (compare field op v).TestsLists) : Predicate.admits op v = true := by
  rw [← Bool.not_eq_false]
  intro hfault
  obtain ⟨hop, hv⟩ := admits_eq_false_iff.1 hfault
  obtain ⟨items, hitems⟩ := hp field op v (List.mem_singleton_self _) hop
  exact hv items hitems

/-- Without a fault in them, all leaves have answers of their own. -/
theorem TestsLists.answers (hp : p.TestsLists) (hfields : textFields ≠ []) (d : Document) :
    ∀ leaf ∈ p.leaves, ∃ answer, leaf.eval textFields d = .ok answer := by
  induction p with
  | compare field op v =>
    intro leaf hleaf
    obtain rfl := List.mem_singleton.1 hleaf
    exact compare_of_admits hp.admits _
  | text search =>
    intro leaf hleaf
    obtain rfl := List.mem_singleton.1 hleaf
    exact ⟨_, eval_text hfields d search⟩
  | combine k left right ihl ihr =>
    obtain ⟨hleft, hright⟩ := testsLists_combine_iff.1 hp
    intro leaf hleaf
    rcases List.mem_append.1 hleaf with hleaf | hleaf
    · exact ihl hleft leaf hleaf
    · exact ihr hright leaf hleaf

/-- What a leaf says of a document; a leaf at fault says no. -/
def answerOf (textFields : List String) (d : Document) (leaf : Predicate) : Bool :=
  (leaf.eval textFields d).toOption.getD false

theorem TestsLists.eval_leaf (hp : p.TestsLists) (hfields : textFields ≠ []) (d : Document) :
    ∀ leaf ∈ p.leaves, leaf.eval textFields d = .ok (answerOf textFields d leaf) := by
  intro leaf hleaf
  obtain ⟨answer, hanswer⟩ := hp.answers hfields d leaf hleaf
  simp [answerOf, hanswer, Except.toOption]

/-! ## Exchanging sides -/

/-- Whether a tree becomes another one when the sides of some of its joins are exchanged. -/
inductive Exchanged : Predicate → Predicate → Prop where
  | refl (p : Predicate) : Exchanged p p
  | keep {k : Connector} {l l' r r' : Predicate} (left : Exchanged l l') (right : Exchanged r r') :
      Exchanged (combine k l r) (combine k l' r')
  | swap {k : Connector} {l l' r r' : Predicate} (left : Exchanged l l') (right : Exchanged r r') :
      Exchanged (combine k l r) (combine k r' l')

theorem Exchanged.leaves_perm (h : Exchanged p q) : q.leaves.Perm p.leaves := by
  induction h with
  | refl => exact .refl _
  | keep _ _ ihl ihr => exact ihl.append ihr
  | swap _ _ ihl ihr => exact List.perm_append_comm.trans (ihl.append ihr)

theorem Exchanged.truth_eq (h : Exchanged p q) (answer : Predicate → Bool) : q.truth answer = p.truth answer := by
  induction h with
  | refl => rfl
  | @keep k _ _ _ _ _ _ ihl ihr => cases k <;> simp [truth, ihl, ihr]
  | @swap k _ _ _ _ _ _ ihl ihr => cases k <;> simp [truth, ihl, ihr, Bool.and_comm, Bool.or_comm]

/-- Where all leaves have answers, it does not matter in which order the sides of joins stand. -/
theorem Exchanged.eval_eq (h : Exchanged p q)
    (hleaves : ∀ leaf ∈ p.leaves, leaf.eval textFields d = .ok (answer leaf)) :
    q.eval textFields d = p.eval textFields d := by
  have hleaves' : ∀ leaf ∈ q.leaves, leaf.eval textFields d = .ok (answer leaf) :=
    fun leaf hleaf => hleaves leaf (h.leaves_perm.subset hleaf)
  rw [eval_eq_truth hleaves, eval_eq_truth hleaves', h.truth_eq]

/-! ## Negated operators and membership -/

theorem eval_notEq (field : String) (v : Value) : (compare field .notEq v).eval textFields d =
    ((compare field .eq v).eval textFields d).map not := rfl

/-- Over anything but a list both membership tests fail alike. -/
theorem eval_notIn (field : String) (v : Value) : (compare field .notIn v).eval textFields d =
    ((compare field .isIn v).eval textFields d).map not := by
  cases v <;> rfl

theorem eval_oneOf_iff {field : String} {vs : List Value} : (oneOf field vs).eval textFields d = .ok true ↔
    ∃ v ∈ vs, (eq field v).eval textFields d = .ok true := by
  simp [oneOf, eq, eval, Matching.compare, Matching.oneOf]

theorem eval_noneOf_iff {field : String} {vs : List Value} : (noneOf field vs).eval textFields d = .ok true ↔
    ∀ v ∈ vs, (compare field .notEq v).eval textFields d = .ok true := by
  simp [noneOf, eval, Matching.compare, Matching.oneOf]

/-- **Testing with short circuits is classical.** Where every membership test of a tree has a list and there are
fields for texts, testing a document has an answer, the Boolean value of the tree over what its leaves say of
the document, and that in whatever order the sides of its joins stand. On every operand a negated operator
says the opposite of the operator, and fails where it does. Membership in a list, an empty one included, always
has an answer: it is equality with some value of the list, and its negation is inequality with all. -/
theorem eval_classical (hfields : textFields ≠ []) (hp : p.TestsLists) (d : Document) :
    (∃ answer : Predicate → Bool, (∀ leaf ∈ p.leaves, leaf.eval textFields d = .ok (answer leaf)) ∧
      p.eval textFields d = .ok (p.truth answer)) ∧
    (∀ q, Exchanged p q → q.eval textFields d = p.eval textFields d) ∧
    (∀ field v,
      (compare field .notEq v).eval textFields d = ((compare field .eq v).eval textFields d).map not ∧
      (compare field .notIn v).eval textFields d = ((compare field .isIn v).eval textFields d).map not) ∧
    ∀ field vs,
      (∃ found, (oneOf field vs).eval textFields d = .ok found ∧
        (found = true ↔ ∃ v ∈ vs, (eq field v).eval textFields d = .ok true)) ∧
      ∃ found, (noneOf field vs).eval textFields d = .ok found ∧
        (found = true ↔ ∀ v ∈ vs, (compare field .notEq v).eval textFields d = .ok true) := by
  have hleaves := hp.eval_leaf hfields d
  refine ⟨⟨_, hleaves, eval_eq_truth hleaves⟩, fun q h => h.eval_eq hleaves,
    fun field v => ⟨eval_notEq field v, eval_notIn field v⟩, fun field vs => ⟨?_, ?_⟩⟩
  · refine ⟨Matching.oneOf (d.operand? field) vs, rfl, ?_⟩
    rw [← eval_oneOf_iff]
    exact ⟨congrArg Except.ok, Except.ok.inj⟩
  · refine ⟨!Matching.oneOf (d.operand? field) vs, rfl, ?_⟩
    rw [← eval_noneOf_iff]
    exact ⟨congrArg Except.ok, Except.ok.inj⟩

/-- A tree over tags, a missing size and a text, and the tree with the sides of both joins exchanged: both hold
of the document, the text alone makes them. Of the tags two are asked for, one of them there. -/
theorem eval_classical_of_three_leaves :
    let d : Document := [("_id", .int32 1), ("tags", .array [.string "red", .string "blue"]),
      ("bio", .string "Plays chess")]
    let tags := oneOf "tags" [.string "green", .string "blue"]
    let size := compare "size" .gt (.int32 3)
    let p := combine .or (combine .and tags size) (text "chess, go")
    let q := combine .or (text "chess, go") (combine .and size tags)
    ["bio"] ≠ [] ∧ p.TestsLists ∧ Exchanged p q ∧ p.eval ["bio"] d = .ok true ∧ q.eval ["bio"] d = .ok true ∧
      tags.eval ["bio"] d = .ok true ∧ (noneOf "tags" []).eval ["bio"] d = .ok true := by
  intro d tags size p q
  have hfields : ["bio"] ≠ [] := List.cons_ne_nil _ _
  have hp : p.TestsLists := by
    intro field op v hleaf hop
    simp only [p, tags, size, oneOf, leaves, List.cons_append, List.nil_append, List.mem_cons,
      List.not_mem_nil, or_false, compare.injEq, reduceCtorEq] at hleaf
    rcases hleaf with ⟨-, -, rfl⟩ | ⟨-, rfl, -⟩
    · exact ⟨_, rfl⟩
    · simp at hop
  have hq : Exchanged p q := .swap (.swap (.refl _) (.refl _)) (.refl _)
  obtain ⟨-, hexchanged, -, hmember⟩ := eval_classical hfields hp d
  have hanswer : p.eval ["bio"] d = .ok true := by rfl
  obtain ⟨found, htags, hfound⟩ := (hmember "tags" [.string "green", .string "blue"]).1
  obtain ⟨free, hnone, hfree⟩ := (hmember "tags" []).2
  obtain rfl : found = true := hfound.2 ⟨_, List.mem_cons_of_mem _ (List.mem_singleton_self _), rfl⟩
  obtain rfl : free = true := hfree.2 (List.forall_mem_nil _)
  exact ⟨hfields, hp, hq, hanswer, (hexchanged q hq).trans hanswer, htags, hnone⟩

end Docbase.Predicate
