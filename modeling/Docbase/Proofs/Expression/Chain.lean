/-
Compiling undoes writing. A chain is a first term and more terms, each with the
connector before it; written down, the connector of a term is the separator of
the term before it (`chain`).

`pushTerms?_chain`: the separators, carried from term to term, give back the
connectors, so that compiling a written chain pushes its leaves one by one.
`compile_chain` adds what makes no difference: the white space around the query
and the case of the operator words.
-/
import Docbase.Proofs.Expression.Grammar
import Docbase.Proofs.Text.Trim

namespace Docbase

namespace Predicate

/-- The leaves of a tree, from left to right. -/
def leaves : Predicate → List Predicate
  | .combine _ left right => left.leaves ++ right.leaves
  | leaf => [leaf]

/-- Whether every right child is a leaf. -/
def isLeftDeep : Predicate → Bool
  | .combine _ left right => left.isLeftDeep && right.leaves.length = 1
  | _ => true

end Predicate

namespace Expression

/-! ## Leaves -/

namespace Term

/-- The value that a term compares its field with. -/
def operand (t : Term) : Value :=
  match t.operator with
  | .comparison .eq | .comparison .notEq =>
    if Text.trimChars t.value = ['#'] then .null else .string (String.ofList t.value)
  | .comparison .isIn | .comparison .notIn => .array ((valueSet? t.value).getD [])
  | _ => .string (String.ofList t.value)

def leaf (t : Term) : Predicate :=
  match t.operator with
  | .comparison op => .compare (String.ofList t.field) op t.operand
  | .text => .text (String.ofList t.value)

/-- Whether the operand of a membership test is a set of values; other operands are any. -/
def isOperand (t : Term) : Bool :=
  match t.operator with
  | .comparison .isIn | .comparison .notIn => (valueSet? t.value).isSome
  | _ => true

theorem predicate?_eq_leaf {t : Term} (h : t.isOperand = true) : t.predicate? = some t.leaf := by
  obtain ⟨field, word, operator, value, separator⟩ := t
  cases operator with
  | text => rfl
  | comparison op =>
    cases op with
    | isIn | notIn =>
      simp only [isOperand, Option.isSome_iff_exists] at h
      obtain ⟨items, h⟩ := h
      simp [predicate?, leaf, operand, h, Predicate.oneOf, Predicate.noneOf]
    | eq | notEq | gt | gtEq | lt | ltEq => rfl

theorem leaves_leaf (t : Term) : t.leaf.leaves = [t.leaf] := by
  unfold leaf
  split <;> rfl

/-- Terms that differ in the spelling of their operator words at most. -/
structure Respells (t u : Term) : Prop where
  field_eq : t.field = u.field
  operator_eq : t.operator = u.operator
  value_eq : t.value = u.value

theorem Respells.leaf_eq {t u : Term} (h : t.Respells u) : t.leaf = u.leaf := by
  simp only [leaf, operand, h.field_eq, h.operator_eq, h.value_eq]

theorem Respells.isOperand_eq {t u : Term} (h : t.Respells u) : t.isOperand = u.isOperand := by
  simp only [isOperand, h.operator_eq, h.value_eq]

end Term

/-! ## Chains -/

/-- The terms of a query, given the connector before each term but the first. -/
def chain : Term → List (Connector × Term) → List Term
  | t, [] => [{ t with separator := none }]
  | t, (k, u) :: rest => { t with separator := some k } :: chain u rest

/-- Pushes the leaves of terms in order, each with the connector before it. -/
def pushLeaves (f : Filter) (terms : List (Connector × Term)) : Filter :=
  terms.foldl (fun f p => f.push p.1 p.2.leaf) f

/-- The tree that leans to the left, with the leaves of a chain. -/
def leftTree (t : Term) (rest : List (Connector × Term)) : Predicate :=
  rest.foldl (fun tree p => .combine p.1 tree p.2.leaf) t.leaf

/-- Links of two chains with the same connector, whose terms differ in spelling at most. -/
def SameLink (p q : Connector × Term) : Prop := p.1 = q.1 ∧ p.2.Respells q.2

theorem leftTree_respelled {t u : Term} {rest more : List (Connector × Term)} (h : t.Respells u)
    (hrest : List.Forall₂ SameLink rest more) : leftTree t rest = leftTree u more := by
  have hfold (tree : Predicate) : rest.foldl (fun tree p => .combine p.1 tree p.2.leaf) tree =
      more.foldl (fun tree p => .combine p.1 tree p.2.leaf) tree := by
    induction hrest generalizing tree with
    | nil => rfl
    | cons hlink _ ih => rw [List.foldl_cons, List.foldl_cons, hlink.1, hlink.2.leaf_eq, ih]
  rw [leftTree, leftTree, h.leaf_eq, hfold]

theorem isOperand_respelled {rest more : List (Connector × Term)} (h : List.Forall₂ SameLink rest more)
    (hrest : ∀ p ∈ rest, p.2.isOperand = true) : ∀ p ∈ more, p.2.isOperand = true := by
  induction h with
  | nil => simp
  | @cons p q rest more hlink _ ih =>
    intro r hr
    rcases List.mem_cons.1 hr with rfl | hr
    · exact hlink.2.isOperand_eq ▸ hrest p (by simp)
    · exact ih (fun p hp => hrest p (by simp [hp])) r hr

theorem isQuery_chain : ∀ {t : Term} {rest : List (Connector × Term)}, t.WellFormed →
    (∀ p ∈ rest, p.2.WellFormed) → IsQuery (chain t rest)
  | _, [], ht, _ => .last (ht.withSeparator none) rfl
  | _, (k, u) :: rest, ht, hrest =>
    .cons (ht.withSeparator (some k)) rfl
      (isQuery_chain (hrest (k, u) (by simp)) fun p hp => hrest p (by simp [hp]))

/-- The separator of each term is the connector with which the next leaf is pushed. -/
theorem pushTerms?_chain {t : Term} {rest : List (Connector × Term)} (ht : t.isOperand = true)
    (hrest : ∀ p ∈ rest, p.2.isOperand = true) (f : Filter) (k : Connector) :
    pushTerms? f k (chain t rest) = some (pushLeaves f ((k, t) :: rest)) := by
  induction rest generalizing t f k with
  | nil =>
    have hleaf : ({ t with separator := none } : Term).predicate? = some t.leaf := Term.predicate?_eq_leaf ht
    simp only [chain, pushTerms?, hleaf, pushLeaves, List.foldl_cons, List.foldl_nil]
  | cons p rest ih =>
    obtain ⟨k', u⟩ := p
    have hleaf : ({ t with separator := some k' } : Term).predicate? = some t.leaf :=
      Term.predicate?_eq_leaf ht
    simp only [chain, pushTerms?, hleaf, Option.getD_some]
    rw [ih (hrest (k', u) (by simp)) fun p hp => hrest p (by simp [hp])]
    simp only [pushLeaves, List.foldl_cons]

/-- A filter with a predicate grows to the left. -/
theorem pushLeaves_of_predicate {f : Filter} {tree : Predicate} (h : f.predicate = some tree)
    (rest : List (Connector × Term)) :
    pushLeaves f rest =
      { f with predicate := some (rest.foldl (fun tree p => .combine p.1 tree p.2.leaf) tree) } := by
  induction rest generalizing f tree with
  | nil => simp [pushLeaves, ← h]
  | cons p rest ih =>
    have hpush : (f.push p.1 p.2.leaf).predicate = some (.combine p.1 tree p.2.leaf) := by
      simp only [Filter.push, h]
    have hsort : (f.push p.1 p.2.leaf).sort = f.sort := by simp only [Filter.push, h]
    have hrest := ih hpush
    simp only [pushLeaves, List.foldl_cons] at hrest ⊢
    rw [hrest, hsort]

theorem pushLeaves_empty (k : Connector) (t : Term) (rest : List (Connector × Term)) :
    pushLeaves .empty ((k, t) :: rest) = .ofPredicate (leftTree t rest) :=
  pushLeaves_of_predicate (f := .ofPredicate t.leaf) rfl rest

theorem leaves_leftTree (t : Term) (rest : List (Connector × Term)) :
    (leftTree t rest).leaves = t.leaf :: rest.map (·.2.leaf) := by
  have hfold (tree : Predicate) : (rest.foldl (fun tree p => .combine p.1 tree p.2.leaf) tree).leaves =
      tree.leaves ++ rest.map (·.2.leaf) := by
    induction rest generalizing tree with
    | nil => simp
    | cons p rest ih => simp [ih, Predicate.leaves, Term.leaves_leaf]
  rw [leftTree, hfold, Term.leaves_leaf, List.singleton_append]

theorem isLeftDeep_leftTree (t : Term) (rest : List (Connector × Term)) :
    (leftTree t rest).isLeftDeep = true := by
  have hfold {tree : Predicate} (h : tree.isLeftDeep = true) :
      (rest.foldl (fun tree p => .combine p.1 tree p.2.leaf) tree).isLeftDeep = true := by
    induction rest generalizing tree with
    | nil => exact h
    | cons p rest ih => exact ih (by simp [Predicate.isLeftDeep, h, Term.leaves_leaf])
  refine hfold ?_
  unfold Term.leaf
  split <;> rfl

/-! ## Compiling -/

/-- A chain of terms as text. -/
def writeChain (t : Term) (rest : List (Connector × Term)) : List Char := writeQuery (chain t rest)

theorem writeChain_cons (t : Term) (p : Connector × Term) (rest : List (Connector × Term)) :
    writeChain t (p :: rest) = t.write ++ p.1.symbol :: writeChain p.2 rest := by
  simp [writeChain, chain, writeQuery, Term.write]

theorem writeChain_nil (t : Term) : writeChain t [] = t.write := by
  simp [writeChain, chain, writeQuery, Term.write]

/-- The last character is one of the last value, or the `=` before it. -/
theorem getLast?_writeChain {t u : Term} {rest more : List (Connector × Term)} (h : t.Respells u)
    (hrest : List.Forall₂ SameLink rest more) :
    (writeChain t rest).getLast? = (writeChain u more).getLast? := by
  induction hrest generalizing t u with
  | nil =>
    simp only [writeChain_nil, Term.write_eq, List.getLast?_append, List.getLast?_cons, h.value_eq,
      Option.some_or]
  | @cons p q rest more hpq _ ih =>
    simp only [writeChain_cons, List.getLast?_append, List.getLast?_cons, ih hpq.2, hpq.1, Option.some_or]

theorem isBlank_of_isKeyChar {c : Char} (h : isKeyChar c = true) : Text.isBlank c = false := by
  have hclass : 48 ≤ c.toNat ∧ c.toNat ≤ 57 ∨ 65 ≤ c.toNat ∧ c.toNat ≤ 122 := by
    simp only [isKeyChar, Bool.or_eq_true, decide_eq_true_eq] at h
    rcases h with h | rfl
    · have := toNat_of_isAlphanum h
      omega
    · decide
  rw [← Bool.not_eq_true]
  intro hblank
  simp only [Text.isBlank, Bool.or_eq_true, Bool.and_eq_true, decide_eq_true_eq, Char.le_def,
    UInt32.le_iff_toNat_le] at hblank
  simp only [← Char.toNat_inj, Char.reduceToNat, Char.reduceVal, UInt32.reduceToNat] at hblank
  have : c.toNat = c.val.toNat := rfl
  omega

/-- A chain starts with a key, so only its end could be trimmed. -/
theorem trimChars_writeChain_iff {t : Term} {rest : List (Connector × Term)} (ht : t.WellFormed) :
    Text.trimChars (writeChain t rest) = writeChain t rest ↔
      ∀ c, (writeChain t rest).getLast? = some c → Text.isBlank c = false := by
  rw [Text.trimChars_eq_self_iff]
  refine and_iff_right fun c hc => isBlank_of_isKeyChar (ht.field_chars c ?_)
  have hhead : (writeChain t rest).head? = t.field.head? := by
    obtain ⟨_, _, hfield⟩ := List.exists_cons_of_ne_nil ht.field_ne
    cases rest with
    | nil => simp [writeChain_nil, Term.write, hfield]
    | cons p rest => simp [writeChain_cons, Term.write, hfield]
  exact List.mem_of_mem_head? (hhead ▸ hc)

theorem filterOf?_chain {t : Term} {rest : List (Connector × Term)} (ht : t.WellFormed)
    (hrest : ∀ p ∈ rest, p.2.WellFormed) (hto : t.isOperand = true)
    (hro : ∀ p ∈ rest, p.2.isOperand = true) :
    filterOf? (writeChain t rest) = some (.ofPredicate (leftTree t rest)) := by
  have hquery := isQuery_chain ht hrest
  have hempty : (writeChain t rest).isEmpty = false := by
    cases rest <;> simp [writeChain, chain, writeQuery, Term.write]
  rw [filterOf?, hempty, if_neg Bool.false_ne_true, writeChain, scan?_writeQuery hquery, Option.bind_some,
    pushTerms?_chain hto hro, pushLeaves_empty]

/-- The predicate of an expression is that of its query. -/
theorem exists_filterOf?_of_compile {e : Expression} {f : Filter} (h : compile e = .ok f) :
    ∃ g, filterOf? e.query.toList = some g ∧ g.predicate = f.predicate := by
  unfold compile at h
  split at h
  · cases h
  · next g hg =>
    refine ⟨g, hg, ?_⟩
    split at h
    · cases h
      rfl
    · split at h
      · cases h
      · cases h
        rfl

/-- The predicate and the sort of an expression are found apart. -/
theorem compile_of_filterOf? {query : String} {tree : Predicate} (orderBy : Option String)
    (h : filterOf? (Text.trim query).toList = some (.ofPredicate tree)) :
    compile (ofTokens orderBy query) =
      (compile (ofTokens orderBy "")).map fun f => { f with predicate := some tree } := by
  have hnone : filterOf? (Text.trim "").toList = some .empty := rfl
  simp only [compile, ofTokens, h, hnone]
  by_cases hsort : (Text.trim (orderBy.getD "")).isEmpty = true
  · simp only [hsort, if_true]
    rfl
  · simp only [hsort]
    cases sort? (Text.trim (orderBy.getD "")).toList with
    | none => rfl
    | some sort => rfl

/-- **Compiling undoes writing.** A written chain compiles to the filter on which its leaves were
pushed one by one, the first with any connector: one tree that leans to the left, with the leaves
in order. White space around the query and another spelling of its operator words change nothing,
and the order-by token sets the sort alone. -/
theorem compile_chain {t : Term} {rest : List (Connector × Term)} (ht : t.WellFormed)
    (hrest : ∀ p ∈ rest, p.2.WellFormed) (hto : t.isOperand = true)
    (hro : ∀ p ∈ rest, p.2.isOperand = true)
    (htrim : Text.trimChars (writeChain t rest) = writeChain t rest)
    {u : Term} {more : List (Connector × Term)} (hu : u.WellFormed) (hmore : ∀ p ∈ more, p.2.WellFormed)
    (htu : t.Respells u) (hlinks : List.Forall₂ SameLink rest more)
    {before after : List Char} (hbefore : ∀ c ∈ before, Text.isBlank c = true)
    (hafter : ∀ c ∈ after, Text.isBlank c = true) (orderBy : Option String) (k : Connector) :
    compile (ofTokens none (String.ofList (writeChain t rest))) =
        .ok (pushLeaves .empty ((k, t) :: rest)) ∧
      pushLeaves .empty ((k, t) :: rest) = .ofPredicate (leftTree t rest) ∧
      (leftTree t rest).leaves = t.leaf :: rest.map (·.2.leaf) ∧
      (leftTree t rest).isLeftDeep = true ∧
      compile (ofTokens orderBy (String.ofList (before ++ writeChain u more ++ after))) =
        (compile (ofTokens orderBy "")).map fun f => { f with predicate := some (leftTree t rest) } := by
  have hplain : filterOf? (Text.trim (String.ofList (writeChain t rest))).toList =
      some (.ofPredicate (leftTree t rest)) := by
    rw [Text.trim, String.toList_ofList, String.toList_ofList, htrim]
    exact filterOf?_chain ht hrest hto hro
  have hrespelled : Text.trimChars (writeChain u more) = writeChain u more := by
    rw [trimChars_writeChain_iff hu, ← getLast?_writeChain htu hlinks]
    exact (trimChars_writeChain_iff ht).1 htrim
  have hpadded : filterOf? (Text.trim (String.ofList (before ++ writeChain u more ++ after))).toList =
      some (.ofPredicate (leftTree t rest)) := by
    rw [Text.trim, String.toList_ofList, String.toList_ofList, Text.trimChars_padded hbefore hafter,
      hrespelled, leftTree_respelled htu hlinks]
    exact filterOf?_chain hu hmore (htu.isOperand_eq ▸ hto) (isOperand_respelled hlinks hro)
  refine ⟨?_, pushLeaves_empty k t rest, leaves_leftTree t rest, isLeftDeep_leftTree t rest,
    compile_of_filterOf? orderBy hpadded⟩
  rw [compile_of_filterOf? none hplain, pushLeaves_empty]
  rfl

/-- Three terms with both connectors, a null, a set and a search; the query is padded and respelled. -/
theorem compile_chain_of_three_terms :
    compile (ofTokens (some "a_desc") " a_EQ=#&b_In=('x',#)|c_text=foo bar\u2003") =
      .ok ⟨some (.combine .or
          (.combine .and (.compare "a" .eq .null) (.compare "b" .isIn (.array [.string "x", .null])))
          (.text "foo bar")), some ⟨"a", .desc⟩⟩ := by
  let t : Term := ⟨['a'], "eq".toList, .comparison .eq, ['#'], none⟩
  let rest : List (Connector × Term) :=
    [(.and, ⟨['b'], "in".toList, .comparison .isIn, "('x',#)".toList, none⟩),
      (.or, ⟨['c'], "text".toList, .text, "foo bar".toList, none⟩)]
  let u : Term := { t with word := "EQ".toList }
  let more : List (Connector × Term) :=
    [(.and, ⟨['b'], "In".toList, .comparison .isIn, "('x',#)".toList, none⟩),
      (.or, ⟨['c'], "text".toList, .text, "foo bar".toList, none⟩)]
  have ht : t.WellFormed := ⟨by decide, List.all_eq_true.1 rfl, by decide, by decide, isValue_iff.1 rfl⟩
  have hu : u.WellFormed := ⟨by decide, List.all_eq_true.1 rfl, by decide, by decide, isValue_iff.1 rfl⟩
  have hrest : ∀ p ∈ rest, p.2.WellFormed := by
    simp only [rest, List.mem_cons, List.not_mem_nil, or_false, forall_eq_or_imp, forall_eq]
    exact ⟨⟨by decide, List.all_eq_true.1 rfl, by decide, by decide, isValue_iff.1 rfl⟩,
      ⟨by decide, List.all_eq_true.1 rfl, by decide, by decide, isValue_iff.1 rfl⟩⟩
  have hmore : ∀ p ∈ more, p.2.WellFormed := by
    simp only [more, List.mem_cons, List.not_mem_nil, or_false, forall_eq_or_imp, forall_eq]
    exact ⟨⟨by decide, List.all_eq_true.1 rfl, by decide, by decide, isValue_iff.1 rfl⟩,
      ⟨by decide, List.all_eq_true.1 rfl, by decide, by decide, isValue_iff.1 rfl⟩⟩
  have hlinks : List.Forall₂ SameLink rest more :=
    .cons ⟨rfl, rfl, rfl, rfl⟩ (.cons ⟨rfl, rfl, rfl, rfl⟩ .nil)
  have hbefore : ∀ c ∈ [' '], Text.isBlank c = true := List.all_eq_true.1 rfl
  have hafter : ∀ c ∈ ['\u2003'], Text.isBlank c = true := List.all_eq_true.1 rfl
  have hchain := compile_chain ht hrest (by decide) (by decide) (by decide) hu hmore ⟨rfl, rfl, rfl⟩ hlinks
    hbefore hafter (some "a_desc") .and
  exact hchain.2.2.2.2

end Expression
end Docbase
