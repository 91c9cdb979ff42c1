/-
Which expressions compile. The query comes first, and it fails only as a whole: the operands of all
its terms must be sets of values where the operator is a membership test (`filterOf?_isSome_iff`).
Without an order-by token that is all (`compile_none_eq_ok_iff`); with one, the sort is read from the
token alone (`compile_token`).
-/
import Docbase.Proofs.Expression.Chain

namespace Docbase.Expression

/-! ## Queries -/

theorem Term.predicate?_of_not_isOperand {t : Term} (h : t.isOperand = false) : t.predicate? = none := by
  obtain ⟨field, word, operator, value, separator⟩ := t
  cases operator with
  | text => cases h
  | comparison op =>
    cases op with
    | isIn | notIn =>
      simp only [isOperand, Option.isSome_eq_false_iff, Option.isNone_iff_eq_none] at h
      simp only [predicate?, h, Option.map_none]
    | eq | notEq | gt | gtEq | lt | ltEq => cases h

/-- Pushing terms fails at the first one that is no leaf. -/
theorem pushTerms?_isSome_iff {f : Filter} {k : Connector} {ts : List Term} :
    (pushTerms? f k ts).isSome = true ↔ ∀ t ∈ ts, t.isOperand = true := by
  induction ts generalizing f k with
  | nil => simp [pushTerms?]
  | cons t ts ih =>
    rw [List.forall_mem_cons]
    cases ht : t.isOperand with
    | true => simp only [pushTerms?, Term.predicate?_eq_leaf ht, ih, true_and]
    | false => simp [pushTerms?, Term.predicate?_of_not_isOperand ht]

theorem ne_nil_of_scan? {query : List Char} {ts : List Term} (h : scan? query = some ts) : query ≠ [] := by
  rintro rfl
  cases h

/-- A query that is scanned has a filter iff the operands of its membership tests are sets. -/
theorem filterOf?_isSome_iff {query : List Char} {ts : List Term} (h : scan? query = some ts) :
    (filterOf? query).isSome = true ↔ ∀ t ∈ ts, t.isOperand = true := by
  have hempty : query.isEmpty = false := by simpa using ne_nil_of_scan? h
  rw [filterOf?, hempty, if_neg Bool.false_ne_true, h, Option.bind_some, pushTerms?_isSome_iff]

/-! ## Queries of one term -/

/-- The separators of a query are the connectors of a chain. -/
theorem IsQuery.exists_chain {ts : List Term} (h : IsQuery ts) :
    ∃ t rest, chain t rest = ts ∧ t.WellFormed ∧ ∀ p ∈ rest, p.2.WellFormed := by
  induction h with
  | @last t ht hs => exact ⟨t, [], by rw [chain, ← hs], ht, by simp⟩
  | @cons t k _ ht hs _ ih =>
    obtain ⟨u, rest, rfl, hu, hrest⟩ := ih
    exact ⟨t, (k, u) :: rest, by rw [chain, ← hs], ht, List.forall_mem_cons.2 ⟨hu, hrest⟩⟩

theorem forall_isOperand_chain {t : Term} {rest : List (Connector × Term)}
    (h : ∀ u ∈ chain t rest, u.isOperand = true) :
    t.isOperand = true ∧ ∀ p ∈ rest, p.2.isOperand = true := by
  induction rest generalizing t with
  | nil => exact ⟨h { t with separator := none } (by simp [chain]), by simp⟩
  | cons p rest ih =>
    obtain ⟨k, u⟩ := p
    obtain ⟨ht, hrest⟩ := List.forall_mem_cons.1 h
    exact ⟨ht, List.forall_mem_cons.2 (ih hrest)⟩

/-- The predicate of a query is the tree of the chain that the query is. -/
theorem exists_chain_of_filterOf? {query : List Char} {f : Filter} {p : Predicate}
    (h : filterOf? query = some f) (hp : f.predicate = some p) :
    ∃ (t : Term) (rest : List (Connector × Term)), t.WellFormed ∧ (∀ q ∈ rest, q.2.WellFormed) ∧
      t.isOperand = true ∧ (∀ q ∈ rest, q.2.isOperand = true) ∧ writeChain t rest = query ∧
      leftTree t rest = p := by
  have hsome : (filterOf? query).isSome = true := by rw [h, Option.isSome_some]
  rw [filterOf?] at h
  split at h
  · cases h
    cases hp
  · obtain ⟨ts, hscan, -⟩ := Option.bind_eq_some_iff.1 h
    obtain ⟨hts, rfl⟩ := scan?_eq_some_iff.1 hscan
    rw [filterOf?_isSome_iff hscan] at hsome
    obtain ⟨t, rest, rfl, ht, hrest⟩ := hts.exists_chain
    obtain ⟨hto, hro⟩ := forall_isOperand_chain hsome
    rw [hscan, Option.bind_some, pushTerms?_chain hto hro, pushLeaves_empty, Option.some.injEq] at h
    rw [← h] at hp
    exact ⟨t, rest, ht, hrest, hto, hro, rfl, Option.some.inj hp⟩

/-- A filter that is a single comparison comes from a single term. -/
theorem exists_term_of_filterOf? {query : List Char} {field : String} {op : Comparison} {v : Value}
    (h : filterOf? query = some (.ofPredicate (.compare field op v))) :
    ∃ t : Term, t.WellFormed ∧ t.write = query ∧ t.isOperand = true ∧ t.leaf = .compare field op v := by
  obtain ⟨t, rest, ht, -, hto, -, hwrite, htree⟩ := exists_chain_of_filterOf? h rfl
  -- Each term adds a leaf to the tree.
  have hleaves := leaves_leftTree t rest
  rw [htree] at hleaves
  cases rest with
  | nil => exact ⟨t, ht, by rw [← hwrite, writeChain_nil], hto, htree⟩
  | cons q rest => simp [Predicate.leaves] at hleaves

namespace Term

/-- The key of a term ends at the first `=`. -/
theorem WellFormed.eq_of_write {t u : Term} (ht : t.WellFormed) (hu : u.WellFormed) {value : List Char}
    (h : t.write = u.key ++ '=' :: value) : t.field = u.field ∧ t.operator = u.operator ∧ t.value = value := by
  have hspan := span_key ht t.value
  rw [← write_eq, h, span_key hu, Prod.mk.injEq, List.cons.injEq] at hspan
  obtain ⟨hkey, -, hvalue⟩ := hspan
  have hsplit := ht.splitKey?
  rw [← hkey, hu.splitKey?, Option.some.injEq, Prod.mk.injEq, Prod.mk.injEq] at hsplit
  exact ⟨hsplit.1.symm, hsplit.2.2.symm, hvalue.symm⟩

/-- The membership test of a field. -/
def member (field value : List Char) : Term := ⟨field, "in".toList, .comparison .isIn, value, none⟩

variable {field value : List Char}

theorem write_member : (member field value).write = field ++ "_in=".toList ++ value := by simp [write, member]

theorem wellFormed_member (hne : field ≠ []) (hfield : ∀ c ∈ field, isKeyChar c = true) (h : ValueText value) :
    (member field value).WellFormed where
  field_ne := hne
  field_chars := hfield
  word_free := show '_' ∉ "in".toList by decide
  word_eq := show "in".toList.map Char.toLower = "in".toList by decide
  value := h

end Term

/-- A membership test compiles to the values of its operand. -/
theorem filterOf?_member_iff {field value : List Char} (hne : field ≠ [])
    (hfield : ∀ c ∈ field, isKeyChar c = true) {vs : List Value} :
    filterOf? (Term.member field value).write = some (.ofPredicate (.oneOf (String.ofList field) vs)) ↔
      isValue value = true ∧ valueSet? value = some vs := by
  constructor
  · intro h
    obtain ⟨t, ht, hwrite, hoperand, hleaf⟩ := exists_term_of_filterOf? h
    rw [Term.write_eq (Term.member field value)] at hwrite
    obtain ⟨-, hoperator, hmember⟩ := ht.eq_of_write (Term.wellFormed_member hne hfield .nil) hwrite
    have hisIn : t.operator = .comparison .isIn := hoperator
    have hvalue : t.value = value := hmember
    refine ⟨isValue_iff.2 (hvalue ▸ ht.value), ?_⟩
    simp only [Term.isOperand, hisIn, hvalue] at hoperand
    simp only [Term.leaf, Term.operand, hisIn, hvalue, Predicate.compare.injEq, Value.array.injEq] at hleaf
    obtain ⟨ws, hws⟩ := Option.isSome_iff_exists.1 hoperand
    rw [hws, ← hleaf.2.2, hws, Option.getD_some]
  · rintro ⟨hvalue, hvs⟩
    have hoperand : (Term.member field value).isOperand = true := by simp [Term.isOperand, Term.member, hvs]
    have ht := Term.wellFormed_member hne hfield (isValue_iff.1 hvalue)
    have hfilter : filterOf? (writeChain (Term.member field value) []) =
        some (.ofPredicate (leftTree (Term.member field value) [])) :=
      filterOf?_chain ht (by simp) hoperand (by simp)
    rw [writeChain_nil] at hfilter
    rw [hfilter]
    simp [leftTree, Term.leaf, Term.operand, Term.member, hvs, Predicate.oneOf]

/-! ## Expressions -/

theorem compile_none_eq_ok_iff {query : String} {f : Filter} :
    compile (ofTokens none query) = .ok f ↔ filterOf? (Text.trim query).toList = some f := by
  have hnone : (Text.trim ((none : Option String).getD "")).isEmpty = true := by decide
  simp only [compile, ofTokens, hnone, if_true]
  cases filterOf? (Text.trim query).toList with
  | none => simp
  | some g => simp

/-- A query that has no filter is refused whatever the order-by token. -/
theorem compile_of_filterOf?_eq_none {query : String} (h : filterOf? (Text.trim query).toList = none)
    (orderBy : Option String) :
    compile (ofTokens orderBy query) = .error (.invalidExpression (Text.trim query)) := by
  simp only [compile, ofTokens, h]

/-- A token that is not blank sorts the filter of the query, or it is refused. -/
theorem compile_token {query token : String} {base : Filter}
    (hbase : compile (ofTokens none query) = .ok base) (htoken : Text.trim token ≠ "") :
    compile (ofTokens (some token) query) = (sort? (Text.trim token).toList).elim
      (.error (.invalidExpression (Text.trim token))) fun sort => .ok (base.sortBy sort) := by
  have hempty : (Text.trim token).isEmpty = false := by
    rw [← Bool.not_eq_true, String.isEmpty_iff]
    exact htoken
  simp only [compile, ofTokens, compile_none_eq_ok_iff.1 hbase, Option.getD_some, hempty,
    Bool.false_eq_true, if_false]
  cases sort? (Text.trim token).toList with
  | none => rfl
  | some sort => rfl

end Docbase.Expression
