/-
What the operands of membership tests look like. The scanner takes bare characters and lists in any
number; the list is then what stands between the first parenthesis and the last one, and is read
without another look at parentheses. Sets of numbers have none in them, and in sets of strings they
can stand in quotes only.

`valueSet?_isSome_iff`: a value is an operand iff it is a single list of either kind, or the quotes
of a string reach over the parentheses between several lists (`Bridged`).
-/
import Docbase.Proofs.Expression.NumberSet
import Docbase.Proofs.Expression.StringSet

namespace Docbase.Expression

/-- One list in parentheses, over the characters of lists, that is a set of either kind. -/
def SingleList (value : List Char) : Prop :=
  ∃ list, value = '(' :: list ++ [')'] ∧ (∀ c ∈ list, isListChar c = true) ∧
    (isStringSet list = true ∨ isNumberSet list = true)

/-- A set of strings with a parenthesis in the quotes of an item. -/
def Bridged (value : List Char) : Prop :=
  ∃ list items text, value = '(' :: list ++ [')'] ∧ stringItems? list = some items ∧
    StringItem.quoted text ∈ items ∧ ('(' ∈ text ∨ ')' ∈ text)

/-- Parentheses are no characters of lists. -/
theorem isListChar_eq_false {c : Char} (h : c = '(' ∨ c = ')') : isListChar c = false := by
  rcases h with rfl | rfl
  · decide
  · decide

theorem isListChar_of_isBareChar {c : Char} (h : isBareChar c = true) : isListChar c = true := by
  simp only [isBareChar, isListChar, Bool.or_eq_true] at h ⊢
  tauto

/-- Inside a value, all characters but the parentheses may stand in lists. -/
theorem isListChar_or_paren {value list : List Char} (hvalue : ValueText value)
    (h : value = '(' :: list ++ [')']) {c : Char} (hc : c ∈ list) :
    isListChar c = true ∨ c = '(' ∨ c = ')' := by
  refine hvalue.forall_mem (P := fun c => isListChar c = true ∨ c = '(' ∨ c = ')')
    (fun c hbare => .inl (isListChar_of_isBareChar hbare)) (fun c hlist => .inl hlist) (.inr (.inl rfl))
    (.inr (.inr rfl)) c ?_
  rw [h]
  simp [hc]

/-- No parenthesis stands in a set of numbers. -/
theorem isListChar_of_isNumberSet {list : List Char} (h : isNumberSet list = true) {c : Char} (hc : c ∈ list) :
    isListChar c = true := by
  obtain ⟨ns, hns⟩ := Option.isSome_iff_exists.1 h
  obtain ⟨hwell, items, rfl, rfl, -⟩ := spell_of_numerals? hns
  rcases mem_spell hc with rfl | ⟨p, hp, hc⟩
  · decide
  · rcases (hwell p.1 (List.mem_map_of_mem hp)).mem_write hc with hdigit | rfl
    · have halpha : c.isAlphanum = true := by rw [Char.isAlphanum, hdigit, Bool.or_true]
      simp [isListChar, halpha]
    · decide

/-- In a set of strings a parenthesis stands in quotes. -/
theorem exists_quoted_of_paren {list : List Char} {items : List StringItem} (h : stringItems? list = some items)
    {c : Char} (hparen : c = '(' ∨ c = ')') (hc : c ∈ list) : ∃ text, .quoted text ∈ items ∧ c ∈ text := by
  obtain ⟨-, spaced, rfl, rfl⟩ := spell_of_stringItems? h
  have hne (d : Char) (hd : isListChar d = true) : c ≠ d := by
    rintro rfl
    rw [isListChar_eq_false hparen] at hd
    cases hd
  rcases mem_spell hc with hcomma | ⟨⟨item, n⟩, hp, hc⟩
  · exact absurd hcomma (hne ',' (by decide))
  · cases item with
    | quoted text =>
      refine ⟨text, List.mem_map_of_mem hp, ?_⟩
      simpa [StringItem.write, hne '\'' (by decide)] using hc
    | hash => exact absurd (List.mem_singleton.1 hc) (hne '#' (by decide))

theorem mem_of_mem_quoted {list text : List Char} {items : List StringItem} (h : stringItems? list = some items)
    (hitem : .quoted text ∈ items) {c : Char} (hc : c ∈ text) : c ∈ list := by
  obtain ⟨-, spaced, rfl, rfl⟩ := spell_of_stringItems? h
  obtain ⟨⟨item, n⟩, hp, rfl⟩ := List.mem_map.1 hitem
  exact mem_spell_of_mem hp (show c ∈ '\'' :: (text ++ ['\'']) by simp [hc])

/-! ## Operands -/

theorem SingleList.not_bridged {value : List Char} (h : SingleList value) : ¬Bridged value := by
  rintro ⟨list, items, text, rfl, hitems, hitem, hparen⟩
  obtain ⟨list', heq, hchars, -⟩ := h
  rw [List.append_cancel_right_eq, List.cons.injEq] at heq
  obtain ⟨-, rfl⟩ := heq
  rcases hparen with hopen | hclose
  · exact absurd (hchars '(' (mem_of_mem_quoted hitems hitem hopen)) (by decide)
  · exact absurd (hchars ')' (mem_of_mem_quoted hitems hitem hclose)) (by decide)

theorem valueSet?_isSome_of_list {list : List Char} (h : isStringSet list = true ∨ isNumberSet list = true) :
    (valueSet? ('(' :: list ++ [')'])).isSome = true := by
  rcases h with h | h
  · obtain ⟨items, hitems⟩ := Option.isSome_iff_exists.1 h
    rw [valueSet?_of_stringItems? hitems, Option.isSome_some]
  · obtain ⟨ns, -, -, -, -, -, hvalues, -⟩ := numbers_split h
    rw [hvalues, Option.isSome_some]

/-- An operand is a set of strings or a set of numbers, in parentheses. -/
theorem list_of_valueSet? {value : List Char} {vs : List Value} (h : valueSet? value = some vs) :
    ∃ list, value = '(' :: list ++ [')'] ∧ (isStringSet list = true ∨ isNumberSet list = true) := by
  rw [valueSet?] at h
  split at h
  · cases h
  · next list hlist =>
    refine ⟨list, unwrap?_eq_some_iff.1 hlist, ?_⟩
    split at h
    · next hstrings => exact .inl hstrings
    · split at h
      · next hnumbers => exact .inr hnumbers
      · cases h

/-- **A value is an operand iff it is a single list, or a set of strings whose quotes reach over
parentheses.** -/
theorem valueSet?_isSome_iff {value : List Char} (hvalue : ValueText value) :
    (valueSet? value).isSome = true ↔ SingleList value ∨ Bridged value := by
  constructor
  · intro h
    obtain ⟨vs, hvs⟩ := Option.isSome_iff_exists.1 h
    obtain ⟨list, hlist, hkind⟩ := list_of_valueSet? hvs
    by_cases hchars : ∀ c ∈ list, isListChar c = true
    · exact .inl ⟨list, hlist, hchars, hkind⟩
    · push Not at hchars
      obtain ⟨c, hc, hnot⟩ := hchars
      have hparen : c = '(' ∨ c = ')' := (isListChar_or_paren hvalue hlist hc).resolve_left hnot
      rcases hkind with hstrings | hnumbers
      · obtain ⟨items, hitems⟩ := Option.isSome_iff_exists.1 hstrings
        obtain ⟨text, htext, hmem⟩ := exists_quoted_of_paren hitems hparen hc
        refine .inr ⟨list, items, text, hlist, hitems, htext, ?_⟩
        rcases hparen with rfl | rfl
        · exact .inl hmem
        · exact .inr hmem
      · exact absurd (isListChar_of_isNumberSet hnumbers hc) hnot
  · rintro (⟨list, rfl, -, hkind⟩ | ⟨list, items, text, rfl, hitems, -, -⟩)
    · exact valueSet?_isSome_of_list hkind
    · exact valueSet?_isSome_of_list (.inl (by rw [isStringSet, hitems, Option.isSome_some]))

/-! ## Queries -/

/-- Whether a term tests for membership. -/
def Term.IsMembership (t : Term) : Prop :=
  t.operator = .comparison .isIn ∨ t.operator = .comparison .notIn

theorem Term.WellFormed.isOperand_iff {t : Term} (h : t.WellFormed) :
    t.isOperand = true ↔ (t.IsMembership → SingleList t.value ∨ Bridged t.value) := by
  rw [← valueSet?_isSome_iff h.value]
  obtain ⟨field, word, operator, value, separator⟩ := t
  cases operator with
  | text => simp [isOperand, IsMembership]
  | comparison op => cases op <;> simp [isOperand, IsMembership]

/-- A query is accepted iff the value of every membership test is an operand. -/
theorem accepted_iff {query : String} {ts : List Term} (h : scan? (Text.trim query).toList = some ts) :
    (∃ f, compile (ofTokens none query) = .ok f) ↔
      ∀ t ∈ ts, t.IsMembership → SingleList t.value ∨ Bridged t.value := by
  have hwell := (scan?_eq_some_iff.1 h).1.wellFormed
  simp only [compile_none_eq_ok_iff, ← Option.isSome_iff_exists, filterOf?_isSome_iff h]
  exact forall₂_congr fun t ht => (hwell t ht).isOperand_iff

/-- Otherwise it is refused, whatever the order-by token. -/
theorem refused_of_value {query : String} {ts : List Term} (h : scan? (Text.trim query).toList = some ts)
    {t : Term} (ht : t ∈ ts) (hmember : t.IsMembership) (hsingle : ¬SingleList t.value)
    (hbridged : ¬Bridged t.value) (orderBy : Option String) :
    compile (ofTokens orderBy query) = .error (.invalidExpression (Text.trim query)) := by
  refine compile_of_filterOf?_eq_none ?_ orderBy
  cases hfilter : filterOf? (Text.trim query).toList with
  | none => rfl
  | some f =>
    have hok := (accepted_iff h).1 ⟨f, compile_none_eq_ok_iff.2 hfilter⟩
    exact absurd (hok t ht hmember) (not_or.2 ⟨hsingle, hbridged⟩)

/-- **A query is accepted iff the value of every membership test is a single list, or a set of
strings whose quotes reach over parentheses.** A query with any other such value is refused, whatever
the order-by token. So the values of accepted queries are single lists, and other values are refused,
iff no quotes reach over parentheses, or the query is refused for another value. -/
theorem memberships_iff {query : String} {ts : List Term} (h : scan? (Text.trim query).toList = some ts) :
    ((∃ f, compile (ofTokens none query) = .ok f) ↔
      ∀ t ∈ ts, t.IsMembership → SingleList t.value ∨ Bridged t.value) ∧
    ((∃ t ∈ ts, t.IsMembership ∧ ¬SingleList t.value ∧ ¬Bridged t.value) → ∀ orderBy,
      compile (ofTokens orderBy query) = .error (.invalidExpression (Text.trim query))) ∧
    (((∀ orderBy f, compile (ofTokens orderBy query) = .ok f → ∀ t ∈ ts, t.IsMembership → SingleList t.value) ∧
        ((∃ t ∈ ts, t.IsMembership ∧ ¬SingleList t.value) → ∀ orderBy,
          compile (ofTokens orderBy query) = .error (.invalidExpression (Text.trim query)))) ↔
      (∀ t ∈ ts, t.IsMembership → ¬Bridged t.value) ∨
        ∃ t ∈ ts, t.IsMembership ∧ ¬SingleList t.value ∧ ¬Bridged t.value) := by
  have hrefused : (∃ t ∈ ts, t.IsMembership ∧ ¬SingleList t.value ∧ ¬Bridged t.value) → ∀ orderBy,
      compile (ofTokens orderBy query) = .error (.invalidExpression (Text.trim query)) := by
    rintro ⟨t, ht, hmember, hsingle, hbridged⟩
    exact refused_of_value h ht hmember hsingle hbridged
  refine ⟨accepted_iff h, hrefused, ?_, ?_⟩
  · rintro ⟨hlists, -⟩
    by_cases hother : ∃ t ∈ ts, t.IsMembership ∧ ¬SingleList t.value ∧ ¬Bridged t.value
    · exact .inr hother
    · push Not at hother
      have hall : ∀ t ∈ ts, t.IsMembership → SingleList t.value ∨ Bridged t.value := fun t ht hmember =>
        or_iff_not_imp_left.2 (hother t ht hmember)
      -- Without other values the query is accepted, so that its lists are single.
      obtain ⟨f, hf⟩ := (accepted_iff h).2 hall
      exact .inl fun t ht hmember => (hlists none f hf t ht hmember).not_bridged
  · rintro (hfree | hother)
    · have hsingle : (∃ t ∈ ts, t.IsMembership ∧ ¬SingleList t.value) → ∀ orderBy,
          compile (ofTokens orderBy query) = .error (.invalidExpression (Text.trim query)) := by
        rintro ⟨t, ht, hmember, hsingle⟩
        exact hrefused ⟨t, ht, hmember, hsingle, hfree t ht hmember⟩
      refine ⟨fun orderBy f hf t ht hmember => ?_, hsingle⟩
      by_contra hnot
      rw [hsingle ⟨t, ht, hmember, hnot⟩ orderBy] at hf
      cases hf
    · have herror := hrefused hother
      refine ⟨fun orderBy f hf => ?_, fun _ => herror⟩
      rw [herror orderBy] at hf
      cases hf

/-- A list of each kind; and two lists in a row, refused before the order-by token is read. -/
theorem memberships_of_lists :
    (∃ f, compile (ofTokens none "a_in=('x',#)|b_notin=(1,2.5)") = .ok f) ∧
      compile (ofTokens (some "up") "a_in=(1)(2)") = .error (.invalidExpression "a_in=(1)(2)") := by
  have hlists : scan? (Text.trim "a_in=('x',#)|b_notin=(1,2.5)").toList =
      some [⟨['a'], "in".toList, .comparison .isIn, "('x',#)".toList, some .or⟩,
        ⟨['b'], "notin".toList, .comparison .notIn, "(1,2.5)".toList, none⟩] := rfl
  have hrow : scan? (Text.trim "a_in=(1)(2)").toList =
      some [⟨['a'], "in".toList, .comparison .isIn, "(1)(2)".toList, none⟩] := rfl
  have hnone : (valueSet? "(1)(2)".toList).isSome = false := rfl
  have hother : ¬SingleList "(1)(2)".toList ∧ ¬Bridged "(1)(2)".toList := by
    rw [← not_or, ← valueSet?_isSome_iff (isValue_iff.1 rfl), hnone]
    exact Bool.false_ne_true
  refine ⟨(memberships_iff hlists).1.2 ?_, (memberships_iff hrow).2.1 ?_ (some "up")⟩
  · simp only [List.forall_mem_cons]
    exact ⟨fun _ => .inl ⟨"'x',#".toList, rfl, List.all_eq_true.1 rfl, .inl rfl⟩,
      fun _ => .inl ⟨"1,2.5".toList, rfl, List.all_eq_true.1 rfl, .inr rfl⟩, by simp⟩
  · exact ⟨_, List.mem_cons_self, .inl rfl, hother⟩

/-- Two lists in a row whose quotes reach from the first into the second. -/
theorem memberships_across_lists :
    scan? (Text.trim "f_in=('a)(b')").toList =
        some [⟨['f'], "in".toList, .comparison .isIn, "('a)(b')".toList, none⟩] ∧
      compile (ofTokens none "f_in=('a)(b')") = .ok (.ofPredicate (.oneOf "f" [.string "a)(b"])) ∧
      ¬SingleList "('a)(b')".toList := by
  refine ⟨rfl, rfl, ?_⟩
  have hbridged : Bridged "('a)(b')".toList :=
    ⟨"'a)(b'".toList, [.quoted "a)(b".toList], "a)(b".toList, rfl, rfl, List.mem_cons_self, .inl (by decide)⟩
  exact fun hsingle => hsingle.not_bridged hbridged

end Docbase.Expression
