/-
The grammar of the expression language, said without the scanner, and that the
scanner reads exactly it.

`ValueText` are the values, `Term.WellFormed` the terms and `IsQuery` the lists of
terms in which each but the last is followed by a separator; `writeQuery` puts
such a list into text. `scan?_eq_some_iff`: a text is scanned into these terms
iff they are a query and the text is what they are written as. Both directions
go by the first separator of the text (`scan?_free`, `scan?_separated`).
-/
import Docbase.Expression.Compile
import Mathlib.Data.List.TakeDrop
import Mathlib.Data.List.TakeWhile

namespace Docbase

namespace Connector

/-- The symbol that a connector is written as between terms. -/
def symbol : Connector → Char
  | .and => '&'
  | .or => '|'

theorem ofSymbol?_symbol (k : Connector) : ofSymbol? k.symbol = some k := by cases k <;> rfl

theorem ofSymbol?_eq_some_iff {c : Char} {k : Connector} : ofSymbol? c = some k ↔ c = k.symbol := by
  constructor
  · intro h
    unfold ofSymbol? at h
    split at h
    · cases h; rfl
    · cases h; rfl
    · cases h
  · rintro rfl
    exact ofSymbol?_symbol k

theorem ofSymbol?_eq_none_iff {c : Char} : ofSymbol? c = none ↔ c ≠ '&' ∧ c ≠ '|' := by
  unfold ofSymbol?
  split <;> simp_all

end Connector

namespace Expression

theorem toNat_of_isAlphanum {c : Char} (h : c.isAlphanum = true) :
    48 ≤ c.toNat ∧ c.toNat ≤ 57 ∨ 65 ≤ c.toNat ∧ c.toNat ≤ 90 ∨ 97 ≤ c.toNat ∧ c.toNat ≤ 122 := by
  have hclass : (decide (c.val ≥ 'A'.val ∧ c.val ≤ 'Z'.val) || (c.val ≥ 'a'.val && c.val ≤ 'z'.val) ||
      (c.val ≥ '0'.val && c.val ≤ '9'.val)) = true := h
  simp only [Bool.or_eq_true, Bool.and_eq_true, decide_eq_true_eq, ge_iff_le, UInt32.le_iff_toNat_le] at hclass
  have : c.toNat = c.val.toNat := rfl
  have : 'A'.val.toNat = 65 := rfl
  have : 'Z'.val.toNat = 90 := rfl
  have : 'a'.val.toNat = 97 := rfl
  have : 'z'.val.toNat = 122 := rfl
  have : '0'.val.toNat = 48 := rfl
  have : '9'.val.toNat = 57 := rfl
  omega

/-! ## Values -/

/-- Bare characters and lists in parentheses, in any order and number. -/
inductive ValueText : List Char → Prop where
  | nil : ValueText []
  | bare {c : Char} {rest : List Char} (hc : isBareChar c = true) (h : ValueText rest) :
      ValueText (c :: rest)
  | list {items rest : List Char} (hne : items ≠ []) (hi : ∀ c ∈ items, isListChar c = true)
      (h : ValueText rest) : ValueText ('(' :: items ++ ')' :: rest)

theorem isBareChar_ne_paren {c : Char} (h : isBareChar c = true) : c ≠ '(' := by
  rintro rfl
  exact absurd h (by decide)

theorem isListChar_ne_paren {c : Char} (h : isListChar c = true) : c ≠ ')' := by
  rintro rfl
  exact absurd h (by decide)

/-- Inside a list, the rest of it comes first, then a value. -/
theorem isValueFrom_listed_iff {cs : List Char} : isValueFrom .listed cs = true ↔
    ∃ items rest, cs = items ++ ')' :: rest ∧ (∀ c ∈ items, isListChar c = true) ∧
      isValueFrom .bare rest = true := by
  induction cs with
  | nil => simp [isValueFrom]
  | cons c cs ih =>
    by_cases hc : c = ')'
    · subst hc
      simp only [isValueFrom, if_true]
      constructor
      · exact fun h => ⟨[], cs, rfl, by simp, h⟩
      · rintro ⟨items, rest, heq, hi, h⟩
        cases items with
        | nil => simp only [List.nil_append, List.cons.injEq, true_and] at heq; exact heq ▸ h
        | cons i items =>
          simp only [List.cons_append, List.cons.injEq] at heq
          exact absurd heq.1.symm (isListChar_ne_paren (hi i (by simp)))
    · simp only [isValueFrom, if_neg hc, Bool.and_eq_true, ih]
      constructor
      · rintro ⟨hl, items, rest, rfl, hi, h⟩
        exact ⟨c :: items, rest, rfl, by simpa using ⟨hl, hi⟩, h⟩
      · rintro ⟨items, rest, heq, hi, h⟩
        cases items with
        | nil => simp only [List.nil_append, List.cons.injEq] at heq; exact absurd heq.1 hc
        | cons i items =>
          simp only [List.cons_append, List.cons.injEq] at heq
          obtain ⟨rfl, rfl⟩ := heq
          exact ⟨hi c (by simp), items, rest, rfl, fun x hx => hi x (by simp [hx]), h⟩

theorem isValueFrom_opened_iff {cs : List Char} : isValueFrom .opened cs = true ↔
    ∃ items rest, items ≠ [] ∧ cs = items ++ ')' :: rest ∧ (∀ c ∈ items, isListChar c = true) ∧
      isValueFrom .bare rest = true := by
  cases cs with
  | nil => simp [isValueFrom]
  | cons c cs =>
    simp only [isValueFrom, Bool.and_eq_true, isValueFrom_listed_iff]
    constructor
    · rintro ⟨hc, items, rest, rfl, hi, h⟩
      exact ⟨c :: items, rest, by simp, rfl, by simpa using ⟨hc, hi⟩, h⟩
    · rintro ⟨items, rest, hne, heq, hi, h⟩
      cases items with
      | nil => exact absurd rfl hne
      | cons i items =>
        simp only [List.cons_append, List.cons.injEq] at heq
        obtain ⟨rfl, rfl⟩ := heq
        exact ⟨hi c (by simp), items, rest, rfl, fun x hx => hi x (by simp [hx]), h⟩

theorem ValueText.isValue {cs : List Char} (h : ValueText cs) : isValue cs = true := by
  induction h with
  | nil => rfl
  | bare hc _ ih =>
    simp only [Expression.isValue, isValueFrom, if_neg (isBareChar_ne_paren hc), hc, Bool.true_and]
    exact ih
  | @list items rest hne hi _ ih =>
    simp only [Expression.isValue, List.cons_append, isValueFrom, if_true]
    exact isValueFrom_opened_iff.2 ⟨items, rest, hne, rfl, hi, ih⟩

theorem valueText_of_isValue : ∀ cs : List Char, isValue cs = true → ValueText cs
  | [], _ => .nil
  | c :: cs, h => by
    by_cases hc : c = '('
    · subst hc
      simp only [isValue, isValueFrom, if_true] at h
      obtain ⟨items, rest, hne, rfl, hi, hrest⟩ := isValueFrom_opened_iff.1 h
      exact .list hne hi (valueText_of_isValue rest hrest)
    · simp only [isValue, isValueFrom, if_neg hc, Bool.and_eq_true] at h
      exact .bare h.1 (valueText_of_isValue cs h.2)
termination_by cs => cs.length

theorem isValue_iff {cs : List Char} : isValue cs = true ↔ ValueText cs :=
  ⟨valueText_of_isValue cs, ValueText.isValue⟩

/-- What holds of the characters of values holds of every character of a value. -/
theorem ValueText.forall_mem {cs : List Char} (h : ValueText cs) {P : Char → Prop}
    (hbare : ∀ c, isBareChar c = true → P c) (hlist : ∀ c, isListChar c = true → P c)
    (hopen : P '(') (hclose : P ')') : ∀ c ∈ cs, P c := by
  induction h with
  | nil => simp
  | bare hc _ ih =>
    intro x hx
    rcases List.mem_cons.1 hx with rfl | hx
    · exact hbare _ hc
    · exact ih x hx
  | list _ hi _ ih =>
    intro x hx
    simp only [List.cons_append, List.mem_cons, List.mem_append] at hx
    rcases hx with rfl | hx | rfl | hx
    · exact hopen
    · exact hlist x (hi x hx)
    · exact hclose
    · exact ih x hx

/-! ## Operator words -/

namespace Operator

theorem mem_all (op : Operator) : op ∈ all := by
  cases op with
  | comparison c => cases c <;> decide
  | text => decide

theorem eq_of_word_eq {a b : Operator} (h : a.word.toList = b.word.toList) : a = b := by
  have hall : ∀ a ∈ all, ∀ b ∈ all, a.word.toList = b.word.toList → a = b := by decide
  exact hall a (mem_all a) b (mem_all b) h

theorem ofWord?_eq_some_iff {word : List Char} {op : Operator} :
    ofWord? word = some op ↔ word.map Char.toLower = op.word.toList := by
  unfold ofWord?
  constructor
  · intro h
    have ho : op.word.toList = word.map Char.toLower := by simpa using List.find?_some h
    exact ho.symm
  · intro h
    cases hf : all.find? fun o => o.word.toList = word.map Char.toLower with
    | none =>
      have := List.find?_eq_none.1 hf op (mem_all op)
      simp [h] at this
    | some o =>
      have ho : o.word.toList = word.map Char.toLower := by simpa using List.find?_some hf
      rw [eq_of_word_eq (ho.trans h)]

theorem word_isAlphanum (op : Operator) : ∀ c ∈ op.word.toList, c.isAlphanum = true := by
  have hall : (all.all fun o => o.word.toList.all Char.isAlphanum) = true := by decide
  exact List.all_eq_true.1 (List.all_eq_true.1 hall op (mem_all op))

end Operator

theorem isAlphanum_of_toLower {c : Char} (h : c.toLower.isAlphanum = true) :
    c.isAlphanum = true := by
  unfold Char.toLower at h
  split at h
  · next hu =>
    have hupper : c.isUpper = true := decide_eq_true hu
    have hparts : c.isAlphanum = (c.isUpper || c.isLower || c.isDigit) := rfl
    rw [hparts, hupper]
    rfl
  · exact h

/-! ## Terms -/

/-- A term of the grammar. Its key, `field_word`, is read from the right: the word holds
no underscore. -/
structure Term.WellFormed (t : Term) : Prop where
  field_ne : t.field ≠ []
  field_chars : ∀ c ∈ t.field, isKeyChar c = true
  word_free : '_' ∉ t.word
  word_eq : t.word.map Char.toLower = t.operator.word.toList
  value : ValueText t.value

namespace Term

/-- The separator after a term is no part of it. -/
theorem WellFormed.withSeparator {t : Term} (h : t.WellFormed) (separator : Option Connector) :
    ({ t with separator } : Term).WellFormed :=
  ⟨h.field_ne, h.field_chars, h.word_free, h.word_eq, h.value⟩

/-- What stands before the `=` of a term. -/
def key (t : Term) : List Char := t.field ++ '_' :: t.word

theorem write_eq (t : Term) : t.write = t.key ++ '=' :: t.value := by simp [write, key]

theorem WellFormed.word_chars {t : Term} (h : t.WellFormed) : ∀ c ∈ t.word, isKeyChar c = true := by
  intro c hc
  have hlower : c.toLower ∈ t.operator.word.toList := h.word_eq ▸ List.mem_map_of_mem hc
  simp [isKeyChar, isAlphanum_of_toLower (t.operator.word_isAlphanum _ hlower)]

theorem WellFormed.key_chars {t : Term} (h : t.WellFormed) : ∀ c ∈ t.key, isKeyChar c = true := by
  intro c hc
  simp only [key, List.mem_append, List.mem_cons] at hc
  rcases hc with hc | rfl | hc
  · exact h.field_chars c hc
  · decide
  · exact h.word_chars c hc

/-- No character of a term is a separator. -/
theorem WellFormed.write_free {t : Term} (h : t.WellFormed) :
    ∀ c ∈ t.write, Connector.ofSymbol? c = none := by
  have class_free {p : Char → Bool} (hand : p '&' = false) (hor : p '|' = false) :
      ∀ c, p c = true → Connector.ofSymbol? c = none := by
    intro c hc
    refine Connector.ofSymbol?_eq_none_iff.2 ⟨?_, ?_⟩ <;> rintro rfl <;> simp_all
  intro c hc
  simp only [write_eq, List.mem_append, List.mem_cons] at hc
  rcases hc with hc | rfl | hc
  · exact class_free (p := isKeyChar) (by decide) (by decide) c (h.key_chars c hc)
  · rfl
  · exact h.value.forall_mem (class_free (by decide) (by decide)) (class_free (by decide) (by decide))
      rfl rfl c hc

theorem span_key {t : Term} (h : t.WellFormed) (rest : List Char) :
    (t.key ++ '=' :: rest).span isKeyChar = (t.key, '=' :: rest) := by
  rw [List.span_eq_takeWhile_dropWhile, List.takeWhile_append_of_pos h.key_chars,
    List.dropWhile_append_of_pos h.key_chars]
  simp [show isKeyChar '=' = false by decide]

theorem splitKey?_eq_some_iff {key field word : List Char} {operator : Operator} :
    splitKey? key = some (field, word, operator) ↔ key = field ++ '_' :: word ∧ field ≠ [] ∧
      '_' ∉ word ∧ word.map Char.toLower = operator.word.toList := by
  constructor
  · intro h
    unfold splitKey? at h
    split at h
    · next f w hsplit =>
      obtain ⟨rfl, hfree⟩ := Text.splitLast?_eq_some_iff.1 hsplit
      split at h
      · cases h
      · next hne =>
        obtain ⟨op, hop, heq⟩ := Option.map_eq_some_iff.1 h
        cases heq
        exact ⟨rfl, by simpa using hne, hfree, Operator.ofWord?_eq_some_iff.1 hop⟩
    · cases h
  · rintro ⟨rfl, hne, hfree, hword⟩
    have hempty : field.isEmpty = false := by simpa using hne
    simp [splitKey?, Text.splitLast?_append field hfree, hempty, Operator.ofWord?_eq_some_iff.2 hword]

theorem WellFormed.splitKey? {t : Term} (h : t.WellFormed) :
    Term.splitKey? t.key = some (t.field, t.word, t.operator) :=
  splitKey?_eq_some_iff.2 ⟨rfl, h.field_ne, h.word_free, h.word_eq⟩

/-- A term is what its key splits into, with key characters before its value. -/
theorem wellFormed_of_splitKey? {key field word value : List Char} {operator : Operator}
    {separator : Option Connector} (hkey : splitKey? key = some (field, word, operator))
    (hchars : ∀ c ∈ key, isKeyChar c = true) (hvalue : ValueText value) :
    (Term.mk field word operator value separator).WellFormed := by
  obtain ⟨rfl, hne, hfree, hword⟩ := splitKey?_eq_some_iff.1 hkey
  exact ⟨hne, fun c hc => hchars c (by simp [hc]), hfree, hword, hvalue⟩

/-- Reading a part gives the term that it is written as. -/
theorem read?_eq_some_iff {part : List Char} {separator : Option Connector} {t : Term} :
    read? part separator = some t ↔ t.WellFormed ∧ t.write = part ∧ t.separator = separator := by
  unfold read?
  constructor
  · intro h
    split at h
    · next key value hspan =>
      rw [List.span_eq_takeWhile_dropWhile, Prod.mk.injEq] at hspan
      have hpart : part = key ++ '=' :: value := by
        rw [← hspan.1, ← hspan.2, List.takeWhile_append_dropWhile]
      have hchars : ∀ c ∈ key, isKeyChar c = true := fun c hc =>
        List.mem_takeWhile_imp (hspan.1 ▸ hc)
      split at h
      · next hvalue =>
        obtain ⟨⟨field, word, op⟩, hsplit, rfl⟩ := Option.map_eq_some_iff.1 h
        refine ⟨wellFormed_of_splitKey? hsplit hchars (isValue_iff.1 hvalue), ?_, rfl⟩
        obtain ⟨rfl, -⟩ := splitKey?_eq_some_iff.1 hsplit
        simp [hpart, write]
      · cases h
    · cases h
  · rintro ⟨h, rfl, rfl⟩
    rw [write_eq, span_key h]
    simp [h.value.isValue, h.splitKey?]

end Term

/-! ## Queries -/

/-- Terms that make up a query: every term but the last is followed by a separator. -/
inductive IsQuery : List Term → Prop where
  | last {t : Term} (ht : t.WellFormed) (hs : t.separator = none) : IsQuery [t]
  | cons {t : Term} {k : Connector} {rest : List Term} (ht : t.WellFormed) (hs : t.separator = some k)
      (h : IsQuery rest) : IsQuery (t :: rest)

theorem IsQuery.wellFormed {ts : List Term} (h : IsQuery ts) : ∀ t ∈ ts, t.WellFormed := by
  induction h with
  | last ht => simpa using ht
  | cons ht _ _ ih => simpa using ⟨ht, ih⟩

/-- Terms as text, each with the separator that follows it. -/
def writeQuery : List Term → List Char
  | [] => []
  | t :: rest => t.write ++ (t.separator.map Connector.symbol).toList ++ writeQuery rest

theorem parts_free {w : List Char} (h : ∀ c ∈ w, Connector.ofSymbol? c = none) :
    parts w = [(w, none)] := by
  induction w with
  | nil => rfl
  | cons c w ih =>
    rw [parts, h c (by simp), ih fun x hx => h x (by simp [hx])]

theorem parts_separated {w : List Char} (h : ∀ c ∈ w, Connector.ofSymbol? c = none) (k : Connector)
    (rest : List Char) : parts (w ++ k.symbol :: rest) = (w, some k) :: parts rest := by
  induction w with
  | nil => rw [List.nil_append, parts, k.ofSymbol?_symbol]
  | cons c w ih =>
    rw [List.cons_append, parts, h c (by simp), ih fun x hx => h x (by simp [hx])]

theorem scan?_free {w : List Char} (h : ∀ c ∈ w, Connector.ofSymbol? c = none) :
    scan? w = (Term.read? w none).map ([·]) := by
  simp only [scan?, parts_free h, List.mapM_cons, List.mapM_nil]
  cases Term.read? w none <;> rfl

theorem scan?_separated {w : List Char} (h : ∀ c ∈ w, Connector.ofSymbol? c = none) (k : Connector)
    (rest : List Char) :
    scan? (w ++ k.symbol :: rest) =
      (Term.read? w (some k)).bind fun t => (scan? rest).map (t :: ·) := by
  simp only [scan?, parts_separated h, List.mapM_cons]
  cases Term.read? w (some k) with
  | none => rfl
  | some t => cases (parts rest).mapM fun p => Term.read? p.1 p.2 <;> rfl

/-- A text holds no separator, or it has a first one. -/
theorem exists_first_separator (cs : List Char) :
    (∀ c ∈ cs, Connector.ofSymbol? c = none) ∨ ∃ w k rest, cs = w ++ Connector.symbol k :: rest ∧
      ∀ c ∈ w, Connector.ofSymbol? c = none := by
  induction cs with
  | nil => exact .inl (by simp)
  | cons c cs ih =>
    cases hc : Connector.ofSymbol? c with
    | some k => exact .inr ⟨[], k, cs, by simp [Connector.ofSymbol?_eq_some_iff.1 hc], by simp⟩
    | none =>
      rcases ih with h | ⟨w, k, rest, rfl, h⟩
      · exact .inl (by simpa [hc] using h)
      · exact .inr ⟨c :: w, k, rest, rfl, by simpa [hc] using h⟩

theorem scan?_writeQuery {ts : List Term} (h : IsQuery ts) : scan? (writeQuery ts) = some ts := by
  induction h with
  | @last t ht hs =>
    have hread : Term.read? t.write none = some t := Term.read?_eq_some_iff.2 ⟨ht, rfl, hs⟩
    simp [writeQuery, hs, scan?_free ht.write_free, hread]
  | @cons t k rest ht hs _ ih =>
    have hread : Term.read? t.write (some k) = some t := Term.read?_eq_some_iff.2 ⟨ht, rfl, hs⟩
    simp [writeQuery, hs, scan?_separated ht.write_free, hread, ih]

theorem isQuery_of_scan? : ∀ (cs : List Char) {ts : List Term}, scan? cs = some ts →
    IsQuery ts ∧ writeQuery ts = cs := by
  intro cs ts h
  rcases exists_first_separator cs with hfree | ⟨w, k, rest, rfl, hfree⟩
  · rw [scan?_free hfree] at h
    obtain ⟨t, hread, rfl⟩ := Option.map_eq_some_iff.1 h
    obtain ⟨ht, hwrite, hs⟩ := Term.read?_eq_some_iff.1 hread
    exact ⟨.last ht hs, by simp [writeQuery, hwrite, hs]⟩
  · rw [scan?_separated hfree] at h
    obtain ⟨t, hread, h⟩ := Option.bind_eq_some_iff.1 h
    obtain ⟨us, hus, rfl⟩ := Option.map_eq_some_iff.1 h
    obtain ⟨ht, hwrite, hs⟩ := Term.read?_eq_some_iff.1 hread
    obtain ⟨hq, hrest⟩ := isQuery_of_scan? rest hus
    exact ⟨.cons ht hs hq, by simp [writeQuery, hwrite, hs, hrest]⟩
termination_by cs => cs.length

/-- **The scanner reads exactly the grammar.** -/
theorem scan?_eq_some_iff {cs : List Char} {ts : List Term} :
    scan? cs = some ts ↔ IsQuery ts ∧ writeQuery ts = cs := by
  constructor
  · exact isQuery_of_scan? cs
  · rintro ⟨h, rfl⟩
    exact scan?_writeQuery h

/-- A text is written in one way only. -/
theorem writeQuery_injective {ts us : List Term} (ht : IsQuery ts) (hu : IsQuery us)
    (h : writeQuery ts = writeQuery us) : ts = us := by
  have := scan?_writeQuery ht
  rw [h, scan?_writeQuery hu] at this
  exact (Option.some.inj this).symm

end Expression
end Docbase
