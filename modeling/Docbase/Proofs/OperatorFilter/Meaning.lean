/-
What a filter document means, and that it means the predicate it was written
from.

`FilterDocument.holds?` reads a filter document by its operators alone: it knows
neither predicates nor the logical name of `_id`. `holds?_toFilterDocument`: on
every document it gives the answer of the predicate, which has one whenever its
filter document can be written; and it can be written unless a membership test
has no list (`toFilterDocument_isError_iff`). `same_of_toFilterDocument`: two
predicates with the same filter document are the same up to the two names of
`_id`, for any sameness of values that looks inside documents and lists.
-/
import Docbase.Matching.Evaluate
import Docbase.OperatorFilter
import Docbase.Proofs.Expression.Chain
import Docbase.Proofs.Outcome
import Docbase.Value.Equal

namespace Docbase

/-! ## Operators -/

namespace Comparison

/-- The comparison that an operator key stands for. -/
def ofOperatorKey? (key : String) : Option Comparison := all.find? fun op => op.operatorKey = key

theorem ofOperatorKey?_operatorKey (op : Comparison) : ofOperatorKey? op.operatorKey = some op := by
  cases op <;> decide

theorem operatorKey_inj {a b : Comparison} : a.operatorKey = b.operatorKey ↔ a = b := by
  constructor
  · intro h
    have hb := ofOperatorKey?_operatorKey b
    rw [← h, ofOperatorKey?_operatorKey] at hb
    exact Option.some.inj hb
  · rintro rfl
    rfl

theorem operatorKey_ne_search (op : Comparison) : op.operatorKey ≠ "$search" := by cases op <;> decide

end Comparison

theorem Connector.operatorKey_inj {a b : Connector} : a.operatorKey = b.operatorKey ↔ a = b := by
  cases a <;> cases b <;> decide

/-- Whether a key of a filter document is an operator and no field. -/
def isOperatorKey (key : String) : Bool := key.toList.head? = some '$'

theorem isOperatorKey_storedField (field : String) :
    isOperatorKey (storedField field) = isOperatorKey field := by
  unfold storedField
  split
  · next h => rw [h]; decide
  · rfl

/-! ## Reading a filter document -/

/-- The value of a stored field; a dotted name leads through embedded documents. -/
def Document.storedValue? (d : Document) (name : String) : Option Value :=
  d.getPath? ((Text.splitAll '.' name.toList).map String.ofList)

theorem Document.lookup?_eq (d : Document) (field : String) :
    d.lookup? field = d.storedValue? (storedField field) := rfl

namespace FilterDocument

/-- The text of a search. -/
def searchText? (operator : String) : Value → Option String
  | .string s => if operator = "$search" then some s else none
  | _ => none

/-- Whether a document satisfies a filter document: both or one of two operands, a text search, or
the comparison of a stored field. Other values are no filter documents. -/
def holds? (textFields : List String) (d : Document) : Value → Option Bool
  | .document [(key, .array [left, right])] =>
    if key = "$and" then
      (holds? textFields d left).bind fun l => (holds? textFields d right).map fun r => l && r
    else if key = "$or" then
      (holds? textFields d left).bind fun l => (holds? textFields d right).map fun r => l || r
    else none
  | .document [(key, .document [(operator, value)])] =>
    if key = "$text" then (searchText? operator value).map (Matching.searches textFields d)
    else if isOperatorKey key then none
    else
      (Comparison.ofOperatorKey? operator).bind fun op =>
        (Matching.compare ((d.storedValue? key).map Operand.ofValue) op value).toOption
  | _ => none

end FilterDocument

namespace Predicate

open FilterDocument

/-- The fields that a predicate compares. -/
def fields : Predicate → List String
  | .compare field _ _ => [field]
  | .text _ => []
  | .combine _ left right => left.fields ++ right.fields

/-- The filter document of a join, given those of its operands. -/
theorem toFilterDocument_combine_eq_ok_iff {k : Connector} {left right : Predicate} {f : Document} :
    (combine k left right).toFilterDocument = .ok f ↔ ∃ l r, left.toFilterDocument = .ok l ∧
      right.toFilterDocument = .ok r ∧ [(k.operatorKey, .array [.document l, .document r])] = f := by
  rw [toFilterDocument]
  cases left.toFilterDocument with
  | error e => simp
  | ok l =>
    cases right.toFilterDocument with
    | error e => simp
    | ok r => simp

theorem toFilterDocument_compare_eq_ok_iff {field : String} {op : Comparison} {v : Value} {f : Document} :
    (compare field op v).toFilterDocument = .ok f ↔
      admits op v = true ∧ [(storedField field, .document [(op.operatorKey, v)])] = f := by
  rw [toFilterDocument]
  split
  · next h => simp [h]
  · next h => simp [h]

/-- What a comparison does not admit is a membership test without a list. -/
theorem admits_eq_false_iff {op : Comparison} {v : Value} :
    admits op v = false ↔ (op = .isIn ∨ op = .notIn) ∧ ∀ items, v ≠ .array items := by
  cases op <;> cases v <;> simp [admits]

/-- A filter document cannot be written iff a membership test has no list. -/
theorem toFilterDocument_isError_iff {p : Predicate} : (∃ e, p.toFilterDocument = .error e) ↔
    ∃ field op v, compare field op v ∈ p.leaves ∧ (op = .isIn ∨ op = .notIn) ∧
      ∀ items, v ≠ .array items := by
  induction p with
  | compare field op v =>
    rw [toFilterDocument]
    split
    · next h =>
      refine iff_of_false (by simp) ?_
      rintro ⟨field', op', v', hleaf, hbad⟩
      cases List.mem_singleton.1 hleaf
      rw [admits_eq_false_iff.2 hbad] at h
      cases h
    · next h =>
      rw [Bool.not_eq_true, admits_eq_false_iff] at h
      exact iff_of_true ⟨_, rfl⟩ ⟨field, op, v, List.mem_singleton_self _, h⟩
  | text s => simp [toFilterDocument, leaves]
  | combine k left right ihl ihr =>
    have hleaves : (∃ field op v, compare field op v ∈ (combine k left right).leaves ∧
        (op = .isIn ∨ op = .notIn) ∧ ∀ items, v ≠ .array items) ↔
        (∃ e, left.toFilterDocument = .error e) ∨ ∃ e, right.toFilterDocument = .error e := by
      rw [ihl, ihr]
      simp only [leaves, List.mem_append, or_and_right, exists_or]
    rw [hleaves, toFilterDocument]
    cases left.toFilterDocument with
    | error e => simp
    | ok l =>
      cases right.toFilterDocument with
      | error e => simp
      | ok r => simp

/-! ## The meaning of a filter document -/

theorem compare_of_admits {op : Comparison} {v : Value} (h : admits op v = true) (actual : Option Operand) :
    ∃ answer, Matching.compare actual op v = .ok answer := by
  cases op <;> cases v <;> first | exact ⟨_, rfl⟩ | cases h

/-- A filter document means its predicate, which then has an answer on every document. -/
theorem holds?_toFilterDocument {p : Predicate} {f : Document}
    (hfields : ∀ field ∈ p.fields, isOperatorKey field = false) (hf : p.toFilterDocument = .ok f)
    {textFields : List String} (htext : textFields ≠ []) (d : Document) :
    ∃ answer, p.eval textFields d = .ok answer ∧
      holds? textFields d (.document f) = some answer := by
  induction p generalizing f with
  | compare field op v =>
    obtain ⟨hadmits, rfl⟩ := toFilterDocument_compare_eq_ok_iff.1 hf
    obtain ⟨answer, hanswer⟩ := compare_of_admits hadmits (d.operand? field)
    have hkey : isOperatorKey (storedField field) = false := by
      rw [isOperatorKey_storedField]
      exact hfields field (List.mem_singleton_self field)
    have hne : storedField field ≠ "$text" := by
      intro heq
      rw [heq] at hkey
      cases hkey
    refine ⟨answer, hanswer, ?_⟩
    rw [holds?, if_neg hne, hkey, if_neg Bool.false_ne_true, Comparison.ofOperatorKey?_operatorKey,
      Option.bind_some, ← Document.lookup?_eq]
    exact congrArg Except.toOption hanswer
  | text s =>
    cases hf
    refine ⟨Matching.searches textFields d s, ?_, rfl⟩
    rw [eval, if_neg (by simpa using htext)]
  | combine k left right ihl ihr =>
    obtain ⟨l, r, hl, hr, rfl⟩ := toFilterDocument_combine_eq_ok_iff.1 hf
    obtain ⟨a, ha, hla⟩ := ihl (fun x hx => hfields x (List.mem_append_left _ hx)) hl
    obtain ⟨b, hb, hrb⟩ := ihr (fun x hx => hfields x (List.mem_append_right _ hx)) hr
    cases k with
    | and =>
      refine ⟨a && b, ?_, ?_⟩
      · cases a <;> simp [eval, ha, hb]
      · rw [holds?, hla, hrb]
        rfl
    | or =>
      refine ⟨a || b, ?_, ?_⟩
      · cases a <;> simp [eval, ha, hb]
      · rw [holds?, hla, hrb]
        rfl

/-! ## Equal filter documents -/

/-- A sameness of values that looks into documents and lists. -/
structure LooksInside (R : Value → Value → Prop) : Prop where
  field {k k' : String} {v v' : Value} (h : R (.document [(k, v)]) (.document [(k', v')])) : k = k' ∧ R v v'
  pair {a b a' b' : Value} (h : R (.array [a, b]) (.array [a', b'])) : R a a' ∧ R b b'
  string {s t : String} (h : R (.string s) (.string t)) : s = t
  kind {f : Document} {items : List Value} : ¬R (.document f) (.array items) ∧ ¬R (.array items) (.document f)

theorem looksInside_eq : LooksInside (· = ·) where
  field h := by simpa using h
  pair h := by simpa using h
  string h := by simpa using h
  kind := by simp

theorem looksInside_equal : LooksInside (fun v w => v.equal w = true) where
  field {k k' v v'} h := by
    by_cases hk : k' = k
    · exact ⟨hk.symm, by simpa [Value.equal, Value.equalFields, Fields.get?, hk] using h⟩
    · simp [Value.equal, Value.equalFields, Fields.get?, hk] at h
  pair h := by simpa [Value.equal, Value.equalItems] using h
  string h := by simpa [Value.equal] using h
  kind := by simp [Value.equal]

/-- Whether two predicates are the same up to the names of `_id`: the same tree over the same stored
fields, with operands that are the same by `R`. -/
def Same (R : Value → Value → Prop) : Predicate → Predicate → Prop
  | .compare field op v, .compare field' op' w => storedField field = storedField field' ∧ op = op' ∧ R v w
  | .text s, .text t => s = t
  | .combine k left right, .combine k' left' right' => k = k' ∧ Same R left left' ∧ Same R right right'
  | _, _ => False

/-- Predicates with the same filter document are the same. -/
theorem same_of_toFilterDocument {R : Value → Value → Prop} (hR : LooksInside R) {p q : Predicate}
    {f g : Document} (hp : p.toFilterDocument = .ok f) (hq : q.toFilterDocument = .ok g)
    (h : R (.document f) (.document g)) : Same R p q := by
  induction p generalizing q f g with
  | compare field op v =>
    obtain ⟨-, rfl⟩ := toFilterDocument_compare_eq_ok_iff.1 hp
    cases q with
    | compare field' op' w =>
      obtain ⟨-, rfl⟩ := toFilterDocument_compare_eq_ok_iff.1 hq
      obtain ⟨hfield, hinner⟩ := hR.field h
      obtain ⟨hop, hvalue⟩ := hR.field hinner
      exact ⟨hfield, Comparison.operatorKey_inj.1 hop, hvalue⟩
    | text s =>
      cases hq
      exact op.operatorKey_ne_search (hR.field (hR.field h).2).1
    | combine k left right =>
      obtain ⟨l, r, -, -, rfl⟩ := toFilterDocument_combine_eq_ok_iff.1 hq
      exact hR.kind.1 (hR.field h).2
  | text s =>
    cases hp
    cases q with
    | compare field op w =>
      obtain ⟨-, rfl⟩ := toFilterDocument_compare_eq_ok_iff.1 hq
      exact op.operatorKey_ne_search (hR.field (hR.field h).2).1.symm
    | text t =>
      cases hq
      exact hR.string (hR.field (hR.field h).2).2
    | combine k left right =>
      obtain ⟨l, r, -, -, rfl⟩ := toFilterDocument_combine_eq_ok_iff.1 hq
      exact hR.kind.1 (hR.field h).2
  | combine k left right ihl ihr =>
    obtain ⟨l, r, hl, hr, rfl⟩ := toFilterDocument_combine_eq_ok_iff.1 hp
    cases q with
    | compare field op w =>
      obtain ⟨-, rfl⟩ := toFilterDocument_compare_eq_ok_iff.1 hq
      exact hR.kind.2 (hR.field h).2
    | text s =>
      cases hq
      exact hR.kind.2 (hR.field h).2
    | combine k' left' right' =>
      obtain ⟨l', r', hl', hr', rfl⟩ := toFilterDocument_combine_eq_ok_iff.1 hq
      obtain ⟨hk, hoperands⟩ := hR.field h
      obtain ⟨hleft, hright⟩ := hR.pair hoperands
      exact ⟨Connector.operatorKey_inj.1 hk, ihl hl hl' hleft, ihr hr hr' hright⟩

/-- **A filter document means the predicate it is written from, and no other.** It can be written
unless a membership test has no list. Then, over field names that are no operators, it has on every
document the answer of the predicate, which never fails. Predicates with the same filter document,
or with equal ones, are the same up to the names of `_id`. -/
theorem toFilterDocument_faithful (p : Predicate) :
    ((∃ e, p.toFilterDocument = .error e) ↔ ∃ field op v, compare field op v ∈ p.leaves ∧
        (op = .isIn ∨ op = .notIn) ∧ ∀ items, v ≠ .array items) ∧
      ∀ f, p.toFilterDocument = .ok f →
        ((∀ field ∈ p.fields, isOperatorKey field = false) →
          ∀ textFields, textFields ≠ [] → ∀ d : Document, ∃ answer,
            p.eval textFields d = .ok answer ∧ holds? textFields d (.document f) = some answer) ∧
        ∀ (q : Predicate) (g : Document), q.toFilterDocument = .ok g →
          (f = g → Same (· = ·) p q) ∧
          (Document.equal f g = true → Same (fun v w => v.equal w = true) p q) := by
  refine ⟨toFilterDocument_isError_iff, fun f hf => ⟨?_, fun q g hg => ⟨?_, ?_⟩⟩⟩
  · intro hfields textFields htext d
    exact holds?_toFilterDocument hfields hf htext d
  · intro heq
    exact same_of_toFilterDocument looksInside_eq hf hg (congrArg Value.document heq)
  · intro hequal
    exact same_of_toFilterDocument looksInside_equal hf hg hequal

/-- A tree with a membership test, a search and both names of `_id`. -/
theorem toFilterDocument_faithful_of_three_leaves :
    let tree (id : String) : Predicate := .combine .or
      (.combine .and (.compare id .eq (.string "a")) (.compare "tags" .notIn (.array [.string "x", .null])))
      (.text "blue whale")
    let f : Document := [("$or", .array [
      .document [("$and", .array [.document [("_id", .document [("$eq", .string "a")])],
        .document [("tags", .document [("$nin", .array [.string "x", .null])])]])],
      .document [("$text", .document [("$search", .string "blue whale")])]])]
    let d : Document := [("_id", .string "b"), ("note", .string "A whale")]
    (tree "Id").toFilterDocument = .ok f ∧ (tree "Id").eval ["note"] d = .ok true ∧
      holds? ["note"] d (.document f) = some true ∧ Same (· = ·) (tree "Id") (tree "_id") := by
  intro tree f d
  have hf : (tree "Id").toFilterDocument = .ok f := rfl
  obtain ⟨-, hmeaning⟩ := toFilterDocument_faithful (tree "Id")
  obtain ⟨hholds, hsame⟩ := hmeaning f hf
  obtain ⟨answer, heval, hanswer⟩ := hholds (by decide) ["note"] (by decide) d
  have htrue : holds? ["note"] d (.document f) = some true := by decide
  cases htrue.symm.trans hanswer
  exact ⟨hf, heval, htrue, (hsame (tree "_id") f rfl).1 rfl⟩

end Predicate
end Docbase
