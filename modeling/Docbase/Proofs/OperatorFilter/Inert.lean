/-
Nothing in a query becomes an operator. The filter document of a compiled query
has operators only where the translation puts them: what the query itself brings
in are field names of letters, digits and underscores, and operands that are no
documents and hold no `$`.

`Predicate.Inert` is what compiling makes of a query (`inert_compile`), term by
term and push by push; `Inert.placed` is the induction over the tree that
follows every entry of its filter document.
-/
import Docbase.Proofs.Expression.ValueSet
import Docbase.Proofs.OperatorFilter.Meaning

namespace Docbase

/-! ## Entries of a value -/

namespace Value

mutual

/-- The fields of all documents inside a value, at every depth. -/
def entries : Value → List (String × Value)
  | .array items => entriesOfItems items
  | .document fields => entriesOfFields fields
  | _ => []

def entriesOfItems : List Value → List (String × Value)
  | [] => []
  | v :: rest => entries v ++ entriesOfItems rest

def entriesOfFields : List (String × Value) → List (String × Value)
  | [] => []
  | (k, v) :: rest => (k, v) :: (entries v ++ entriesOfFields rest)

end

theorem entriesOfItems_eq_nil {items : List Value} (h : ∀ v ∈ items, v.entries = []) :
    entriesOfItems items = [] := by
  induction items with
  | nil => rfl
  | cons v items ih =>
    rw [entriesOfItems, h v List.mem_cons_self, ih fun w hw => h w (List.mem_cons_of_mem _ hw),
      List.append_nil]

theorem entries_field (key : String) (v : Value) : (document [(key, v)]).entries = (key, v) :: v.entries := by
  simp [entries, entriesOfFields]

theorem entries_pair (a b : Value) : (array [a, b]).entries = a.entries ++ b.entries := by
  simp [entries, entriesOfItems]

end Value

/-! ## Names and operands -/

/-- The operators of filter documents. -/
def operatorKeys : List String :=
  ["$and", "$or", "$eq", "$ne", "$gt", "$gte", "$lt", "$lte", "$in", "$nin", "$text", "$search"]

/-- Stored names of the fields that a query can speak of. -/
structure IsFieldName (name : String) : Prop where
  ne_empty : name ≠ ""
  chars : ∀ c ∈ name.toList, Expression.isKeyChar c = true
  ne_logical : name ≠ logicalIdField

theorem IsFieldName.isOperatorKey_eq {name : String} (h : IsFieldName name) : isOperatorKey name = false := by
  rw [isOperatorKey, decide_eq_false_iff_not]
  intro hhead
  exact absurd (h.chars '$' (List.mem_of_mem_head? hhead)) (by decide)

/-- A string without the character that operators start with. -/
def DollarFree (s : String) : Prop := '$' ∉ s.toList

/-- The operands of comparisons: a string, null, or a list of strings, nulls and doubles. -/
inductive IsOperand : Value → Prop where
  | null : IsOperand .null
  | string {s : String} (h : DollarFree s) : IsOperand (.string s)
  | array {items : List Value}
      (h : ∀ v ∈ items, v = .null ∨ (∃ x, v = .double x) ∨ ∃ s, v = .string s ∧ DollarFree s) :
      IsOperand (.array items)

theorem IsOperand.entries_eq {v : Value} (h : IsOperand v) : v.entries = [] := by
  cases h with
  | null => rfl
  | string => rfl
  | array h =>
    refine Value.entriesOfItems_eq_nil fun v hv => ?_
    rcases h v hv with rfl | ⟨x, rfl⟩ | ⟨s, rfl, -⟩
    · rfl
    · rfl
    · rfl

/-- What may stand under a key of a filter document, and where. -/
inductive Placed : String × Value → Prop where
  | join (k : Connector) (l r : Document) : Placed (k.operatorKey, .array [.document l, .document r])
  | text (s : String) : Placed ("$text", .document [("$search", .string s)])
  | search {s : String} (h : DollarFree s) : Placed ("$search", .string s)
  | field {name : String} (h : IsFieldName name) (op : Comparison) (v : Value) :
      Placed (name, .document [(op.operatorKey, v)])
  | operand (op : Comparison) {v : Value} (h : IsOperand v) : Placed (op.operatorKey, v)

theorem Comparison.operatorKey_mem (op : Comparison) : op.operatorKey ∈ operatorKeys := by
  cases op <;> decide

theorem Connector.operatorKey_mem (k : Connector) : k.operatorKey ∈ operatorKeys := by
  cases k <;> decide

theorem Connector.operatorKey_ne_comparison (k : Connector) (op : Comparison) :
    k.operatorKey ≠ op.operatorKey := by
  cases k <;> cases op <;> decide

theorem Connector.operatorKey_ne_search (k : Connector) : k.operatorKey ≠ "$search" := by
  cases k <;> decide

theorem Comparison.operatorKey_ne_text (op : Comparison) : op.operatorKey ≠ "$text" := by
  cases op <;> decide

theorem isOperatorKey_of_mem {key : String} (h : key ∈ operatorKeys) : isOperatorKey key = true := by
  have hall : ∀ key ∈ operatorKeys, isOperatorKey key = true := by decide
  exact hall key h

theorem IsFieldName.not_mem_operatorKeys {name : String} (h : IsFieldName name) : name ∉ operatorKeys := by
  intro hmem
  exact absurd (isOperatorKey_of_mem hmem) (by simp [h.isOperatorKey_eq])

theorem Placed.key_cases {entry : String × Value} (h : Placed entry) :
    entry.1 ∈ operatorKeys ∨ IsFieldName entry.1 := by
  cases h with
  | join k => exact .inl k.operatorKey_mem
  | text => exact .inl (show "$text" ∈ operatorKeys by decide)
  | search => exact .inl (show "$search" ∈ operatorKeys by decide)
  | field h => exact .inr h
  | operand op => exact .inl op.operatorKey_mem

theorem Placed.operand_of_key {entry : String × Value} (h : Placed entry) {op : Comparison}
    (hkey : entry.1 = op.operatorKey) : IsOperand entry.2 := by
  cases h with
  | join k => exact absurd hkey (k.operatorKey_ne_comparison op)
  | text => exact absurd hkey.symm op.operatorKey_ne_text
  | search => exact absurd hkey.symm op.operatorKey_ne_search
  | @field name h =>
    have hname : name = op.operatorKey := hkey
    exact absurd (hname ▸ op.operatorKey_mem) h.not_mem_operatorKeys
  | operand _ h => exact h

theorem Placed.search_of_key {entry : String × Value} (h : Placed entry) (hkey : entry.1 = "$search") :
    ∃ s, entry.2 = .string s ∧ DollarFree s := by
  cases h with
  | join k => exact absurd hkey k.operatorKey_ne_search
  | text => exact absurd hkey (show ¬"$text" = "$search" by decide)
  | @search s h => exact ⟨s, rfl, h⟩
  | @field name h =>
    have hname : name = "$search" := hkey
    exact absurd (show name ∈ operatorKeys by rw [hname]; decide) h.not_mem_operatorKeys
  | operand op => exact absurd hkey op.operatorKey_ne_search

/-! ## Trees -/

namespace Predicate

/-- Predicates that bring no operator into a filter document. -/
inductive Inert : Predicate → Prop where
  | compare {field : String} {op : Comparison} {v : Value} (hname : IsFieldName (storedField field))
      (hv : IsOperand v) (hadmits : admits op v = true) : Inert (.compare field op v)
  | text {s : String} (h : DollarFree s) : Inert (.text s)
  | combine (k : Connector) {left right : Predicate} (hleft : Inert left) (hright : Inert right) :
      Inert (.combine k left right)

/-- The filter document of such a predicate can be written, and all of it is in its place. -/
theorem Inert.placed {p : Predicate} (h : p.Inert) :
    ∃ f, p.toFilterDocument = .ok f ∧ ∀ entry ∈ (Value.document f).entries, Placed entry := by
  induction h with
  | @compare field op v hname hv hadmits =>
    refine ⟨_, toFilterDocument_compare_eq_ok_iff.2 ⟨hadmits, rfl⟩, ?_⟩
    simp only [Value.entries_field, hv.entries_eq, List.forall_mem_cons]
    exact ⟨.field hname op v, .operand op hv, by simp⟩
  | @text s h =>
    refine ⟨_, rfl, ?_⟩
    have hatom : (Value.string s).entries = [] := rfl
    simp only [Value.entries_field, hatom, List.forall_mem_cons]
    exact ⟨.text s, .search h, by simp⟩
  | combine k _ _ ihl ihr =>
    obtain ⟨l, hl, hlplaced⟩ := ihl
    obtain ⟨r, hr, hrplaced⟩ := ihr
    refine ⟨_, toFilterDocument_combine_eq_ok_iff.2 ⟨l, r, hl, hr, rfl⟩, ?_⟩
    simp only [Value.entries_field, Value.entries_pair, List.forall_mem_cons, List.forall_mem_append]
    exact ⟨.join k l r, hlplaced, hrplaced⟩

end Predicate

namespace Expression

open Predicate (Inert)

/-! ## Compiled queries -/

theorem ValueText.dollarFree {cs : List Char} (h : ValueText cs) : '$' ∉ cs := by
  have hbare : ∀ c, isBareChar c = true → c ≠ '$' := by
    rintro c hc rfl
    exact absurd hc (by decide)
  have hlist : ∀ c, isListChar c = true → c ≠ '$' := by
    rintro c hc rfl
    exact absurd hc (by decide)
  intro hmem
  exact h.forall_mem (P := fun c => c ≠ '$') hbare hlist (by decide) (by decide) '$' hmem rfl

namespace Term

theorem WellFormed.isFieldName {t : Term} (h : t.WellFormed) :
    IsFieldName (storedField (String.ofList t.field)) := by
  unfold storedField
  split
  · exact ⟨by decide, List.all_eq_true.1 rfl, by decide⟩
  · next hne =>
    refine ⟨?_, ?_, hne⟩
    · rw [Ne, ← String.toList_eq_nil_iff, String.toList_ofList]
      exact h.field_ne
    · rw [String.toList_ofList]
      exact h.field_chars

theorem dollarFree_value {t : Term} (h : t.WellFormed) : DollarFree (String.ofList t.value) := by
  rw [DollarFree, String.toList_ofList]
  exact h.value.dollarFree

theorem isOperand_nullable {t : Term} (h : t.WellFormed) : IsOperand (nullable t.value) := by
  rcases nullable_cases t.value with hnull | hstring
  · rw [hnull]
    exact .null
  · rw [hstring]
    exact .string (dollarFree_value h)

theorem isOperand_valueSet? {t : Term} (h : t.WellFormed) {vs : List Value}
    (hvs : valueSet? t.value = some vs) : IsOperand (.array vs) := by
  refine .array fun v hv => ?_
  cases item_of_valueSet? hvs hv with
  | null => exact .inl rfl
  | double x => exact .inr (.inl ⟨x, rfl⟩)
  | @string s hs => exact .inr (.inr ⟨s, rfl, fun hmem => h.value.dollarFree (hs '$' hmem)⟩)

/-- The leaf of a term of the grammar is inert. -/
theorem inert_predicate? {t : Term} (h : t.WellFormed) {leaf : Predicate} (hleaf : t.predicate? = some leaf) :
    Inert leaf := by
  obtain ⟨field, word, operator, value, separator⟩ := t
  cases operator with
  | text =>
    cases hleaf
    exact .text (dollarFree_value h)
  | comparison op =>
    cases op with
    | eq | notEq =>
      cases hleaf
      exact .compare h.isFieldName (isOperand_nullable h) rfl
    | gt | gtEq | lt | ltEq =>
      cases hleaf
      exact .compare h.isFieldName (.string (dollarFree_value h)) rfl
    | isIn | notIn =>
      obtain ⟨vs, hvs, rfl⟩ := Option.map_eq_some_iff.1 hleaf
      exact .compare h.isFieldName (isOperand_valueSet? h hvs) rfl

end Term

/-- A filter whose predicate, if it has one, is inert. -/
def InertFilter (f : Filter) : Prop := ∀ p, f.predicate = some p → Inert p

theorem InertFilter.push {f : Filter} (h : InertFilter f) (k : Connector) {leaf : Predicate}
    (hleaf : Inert leaf) : InertFilter (f.push k leaf) := by
  intro p hp
  unfold Filter.push at hp
  split at hp
  · cases hp
    exact hleaf
  · next tree htree =>
    cases hp
    exact .combine k (h tree htree) hleaf

theorem InertFilter.pushTerms? {ts : List Term} (hts : ∀ t ∈ ts, t.WellFormed) {f g : Filter} {k : Connector}
    (hf : InertFilter f) (h : Expression.pushTerms? f k ts = some g) : InertFilter g := by
  induction ts generalizing f k with
  | nil =>
    cases h
    exact hf
  | cons t ts ih =>
    rw [Expression.pushTerms?] at h
    split at h
    · cases h
    · next leaf hleaf =>
      have hinert := Term.inert_predicate? (hts t List.mem_cons_self) hleaf
      exact ih (fun u hu => hts u (List.mem_cons_of_mem _ hu)) (hf.push k hinert) h

theorem inert_filterOf? {query : List Char} {f : Filter} (h : filterOf? query = some f) : InertFilter f := by
  have hempty : InertFilter .empty := by
    intro p hp
    cases hp
  unfold filterOf? at h
  split at h
  · cases h
    exact hempty
  · obtain ⟨ts, hts, hpush⟩ := Option.bind_eq_some_iff.1 h
    exact hempty.pushTerms? (scan?_eq_some_iff.1 hts).1.wellFormed hpush

/-- Whatever compiles is inert. -/
theorem inert_compile {e : Expression} {f : Filter} (h : compile e = .ok f) : InertFilter f := by
  obtain ⟨g, hg, hpredicate⟩ := exists_filterOf?_of_compile h
  exact fun p hp => inert_filterOf? hg p (hpredicate.trans hp)

/-- **No query brings an operator into its filter document.** Whatever compiles to a predicate has a
filter document. At every depth its keys are operators of the translation, in their places, or names
of letters, digits and underscores, never the logical name of `_id`; what stands under a comparison
is a string, null, or a list of strings, nulls and doubles; and neither these strings nor those
searched for hold a `$`. -/
theorem compile_placed {orderBy : Option String} {query : String} {f : Filter} {p : Predicate}
    (hcompile : compile (ofTokens orderBy query) = .ok f) (hp : f.predicate = some p) :
    ∃ d, p.toFilterDocument = .ok d ∧ ∀ entry ∈ (Value.document d).entries,
      Placed entry ∧ (entry.1 ∈ operatorKeys ∨ IsFieldName entry.1) ∧
        (∀ op : Comparison, entry.1 = op.operatorKey → IsOperand entry.2) ∧
        (entry.1 = "$search" → ∃ s, entry.2 = .string s ∧ DollarFree s) := by
  obtain ⟨d, hd, hplaced⟩ := (inert_compile hcompile p hp).placed
  refine ⟨d, hd, fun entry hentry => ?_⟩
  have h := hplaced entry hentry
  exact ⟨h, h.key_cases, fun op => h.operand_of_key, h.search_of_key⟩

/-- A query with both connectors and every kind of operand. -/
theorem compile_placed_of_five_terms :
    let p : Predicate := .combine .and (.combine .and (.combine .or
      (.combine .and (.compare "Id" .eq .null) (.compare "n" .gt (.string "a.b")))
      (.compare "tags" .notIn (.array [.string "x", .null])))
      (.compare "age" .isIn (.array [.double ⟨0x3FF0000000000000⟩, .double ⟨0x4004000000000000⟩])))
      (.text "blue whale")
    compile (ofTokens none "Id_eq=#&n_gt=a.b|tags_notin=('x',#)&age_in=(1,2.5)&any_text=blue whale") =
        .ok ⟨some p, none⟩ ∧
      ∃ d, p.toFilterDocument = .ok d ∧ ∀ entry ∈ (Value.document d).entries, Placed entry := by
  intro p
  have hcompile : compile (ofTokens none
      "Id_eq=#&n_gt=a.b|tags_notin=('x',#)&age_in=(1,2.5)&any_text=blue whale") = .ok ⟨some p, none⟩ := by
    rfl
  obtain ⟨d, hd, hentries⟩ := compile_placed hcompile rfl
  exact ⟨hcompile, d, hd, fun entry hentry => (hentries entry hentry).1⟩

end Expression
end Docbase
