/-
What a compiled predicate is shown as tells which predicate it is (`display_inj`), although nothing
in the text is escaped: values may hold quotes, parentheses and the words that join two predicates.

The text is read from its end. Trees lean to the left, so a leaf stands in the last parentheses, and
it starts where they open: an opening parenthesis further back would leave it with more of them
open than its value closes (`IsLeaf.ne_after_paren`). A leaf is a field, a word and a value with a
space between them, or a search; what its first quote or bracket opens is its value.
-/
import Docbase.Proofs.Expression.Accepted
import Docbase.Proofs.Expression.Membership
import Docbase.Proofs.Expression.NumeralText

namespace Docbase

namespace Text

/-- Two texts are cut alike at the first place of a character. -/
theorem append_cons_inj_of_free {c : Char} {a b r s : List Char} (ha : c ∉ a) (hb : c ∉ b)
    (h : a ++ c :: r = b ++ c :: s) : a = b ∧ r = s := by
  rcases List.append_eq_append_iff.1 h with ⟨m, rfl, hm⟩ | ⟨m, rfl, hm⟩
  · cases m with
    | nil => simpa using hm
    | cons x m =>
      obtain ⟨rfl, -⟩ := List.cons.inj hm
      simp at hb
  · cases m with
    | nil => simpa using hm.symm
    | cons x m =>
      obtain ⟨rfl, -⟩ := List.cons.inj hm
      simp at ha

end Text

namespace Double

theorem isNegative_ofRatio (num den : Nat) : (ofRatio false num den).isNegative = false := by
  unfold ofRatio
  split
  · exact isNegative_ofMagnitude (Nat.zero_le _)
  · exact isNegative_ofMagnitude (Nat.min_le_right _ _)

end Double

namespace Expression

/-! ## Parentheses in a value -/

theorem not_mem_of_isListChar {items : List Char} (h : ∀ c ∈ items, isListChar c = true) {c : Char}
    (hc : c = '(' ∨ c = ')') : c ∉ items := fun hmem => by
  simpa [isListChar_eq_false hc] using h c hmem

/-- A value closes the parentheses that it opens. -/
theorem ValueText.count_eq {cs : List Char} (h : ValueText cs) : cs.count '(' = cs.count ')' := by
  induction h with
  | nil => rfl
  | bare hc _ ih =>
    have hlist := isListChar_of_isBareChar hc
    rw [List.count_cons_of_ne, List.count_cons_of_ne, ih]
    all_goals
      rintro rfl
      exact absurd hlist (by decide)
  | list _ hi _ ih =>
    simp [List.count_eq_zero.2 (not_mem_of_isListChar hi (.inl rfl)),
      List.count_eq_zero.2 (not_mem_of_isListChar hi (.inr rfl)), ih]

/-- The end of a value opens no parenthesis that it does not close. -/
theorem ValueText.count_le {cs : List Char} (h : ValueText cs) {u v : List Char} (hcs : cs = u ++ v) :
    v.count '(' ≤ v.count ')' := by
  have whole {cs : List Char} (h : ValueText cs) : cs.count '(' ≤ cs.count ')' := Nat.le_of_eq h.count_eq
  induction h generalizing u with
  | nil =>
    obtain ⟨-, rfl⟩ := List.append_eq_nil_iff.1 hcs.symm
    exact Nat.le_refl _
  | bare hc h ih =>
    rcases List.cons_eq_append_iff.1 hcs with ⟨-, rfl⟩ | ⟨u, -, hrest⟩
    · exact whole (.bare hc h)
    · exact ih hrest
  | @list items rest hne hi h ih =>
    rcases List.cons_eq_append_iff.1 hcs with ⟨-, rfl⟩ | ⟨u, -, hrest⟩
    · exact whole (.list hne hi h)
    · rcases List.append_eq_append_iff.1 hrest with ⟨m, -, hm⟩ | ⟨m, rfl, rfl⟩
      · rcases List.cons_eq_append_iff.1 hm with ⟨-, rfl⟩ | ⟨m, -, hrest⟩
        · simpa using Nat.le_succ_of_le (whole h)
        · exact ih hrest
      · -- The end of a list in parentheses.
        have hfree : '(' ∉ m := fun hmem =>
          not_mem_of_isListChar hi (.inl rfl) (List.mem_append_right _ hmem)
        have hle := whole h
        simp only [List.count_append, List.count_eq_zero.2 hfree, List.count_cons_self,
          List.count_cons_of_ne (show ')' ≠ '(' by decide)]
        omega

end Expression

/-! ## Values -/

/-- The values in sets, as they are shown: without commas and brackets. -/
inductive IsShownItem : Value → Prop where
  | null : IsShownItem .null
  | double {x : Double} (hsign : x.isNegative = false) (hnan : x.isNaN = false) : IsShownItem (.double x)
  | string {s : String} (hcomma : ',' ∉ s.toList) (hbracket : '[' ∉ s.toList) : IsShownItem (.string s)

/-- The operands of comparisons. -/
inductive IsShown : Value → Prop where
  | null : IsShown .null
  | string {s : String} (h : Expression.ValueText s.toList) : IsShown (.string s)
  | array {items : List Value} (h : ∀ v ∈ items, IsShownItem v) : IsShown (.array items)

namespace Value

variable {v w : Value}

theorem toList_display_string (s : String) : (string s).display.toList = '"' :: (s.toList ++ ['"']) := by
  simp [display, quoted]

theorem display_string_inj {s t : String} : (string s).display = (string t).display ↔ s = t := by
  simp [← String.toList_inj, toList_display_string]

theorem toList_display_array (items : List Value) :
    (array items).display.toList = '[' :: ((displayItems items).toList ++ [']']) := by
  simp [display]

theorem toList_displayItems (v w : Value) (rest : List Value) :
    (displayItems (v :: w :: rest)).toList =
      v.display.toList ++ ',' :: ' ' :: (displayItems (w :: rest)).toList := by
  simp [displayItems]

end Value

namespace IsShownItem

open Value

variable {v w : Value}

theorem not_mem_display (h : IsShownItem v) {c : Char} (hc : c = ',' ∨ c = '[') : c ∉ v.display.toList := by
  cases h with
  | null => rcases hc with rfl | rfl <;> decide
  | double hsign hnan => rcases hc with rfl | rfl <;> exact Double.not_mem_text hsign hnan (by decide) (by decide)
  | string hcomma hbracket =>
    rw [toList_display_string]
    rcases hc with rfl | rfl
    · simpa using hcomma
    · simpa using hbracket

theorem display_ne_nil (h : IsShownItem v) : v.display.toList ≠ [] := by
  cases h with
  | null => decide
  | double hsign hnan => exact Double.text_ne_nil hsign hnan
  | string => simp [toList_display_string]

/-- Of the items only strings are shown with quotes, and of the others only null with a `u`. -/
theorem display_inj (hv : IsShownItem v) (hw : IsShownItem w) (h : v.display = w.display) : v = w := by
  have apart {v w : Value} (c : Char) (hv : c ∈ v.display.toList) (hw : c ∉ w.display.toList) :
      v.display ≠ w.display := fun h => hw (h ▸ hv)
  have quote (s : String) : '"' ∈ (Value.string s).display.toList := by simp [toList_display_string]
  cases hv with
  | null =>
    cases hw with
    | null => rfl
    | double hsign hnan =>
      exact absurd h (apart 'u' (by decide) (Double.not_mem_text hsign hnan (by decide) (by decide)))
    | string => exact absurd h.symm (apart '"' (quote _) (by decide))
  | double hsign hnan =>
    cases hw with
    | null => exact absurd h.symm (apart 'u' (by decide) (Double.not_mem_text hsign hnan (by decide) (by decide)))
    | double _ hnan' => rw [(Double.text_inj hnan hnan').1 h]
    | string =>
      exact absurd h.symm (apart '"' (quote _) (Double.not_mem_text hsign hnan (by decide) (by decide)))
  | string =>
    cases hw with
    | null => exact absurd h (apart '"' (quote _) (by decide))
    | double hsign hnan =>
      exact absurd h (apart '"' (quote _) (Double.not_mem_text hsign hnan (by decide) (by decide)))
    | string => rw [display_string_inj.1 h]

end IsShownItem

namespace Value

theorem displayItems_cons_ne_empty {rest : List Value} (hv : IsShownItem v) : displayItems (v :: rest) ≠ "" := by
  rw [Ne, ← String.toList_eq_nil_iff]
  cases rest with
  | nil => exact hv.display_ne_nil
  | cons w rest => simp [toList_displayItems]

theorem displayItems_singleton_ne {rest : List Value} {w' : Value} (hv : IsShownItem v) :
    displayItems [v] ≠ displayItems (w :: w' :: rest) := by
  intro h
  refine hv.not_mem_display (.inl rfl) ?_
  rw [show v.display = displayItems [v] from rfl, h, toList_displayItems]
  simp

/-- Items are told apart at the commas, which are in none of them. -/
theorem displayItems_inj {items others : List Value} (hitems : ∀ v ∈ items, IsShownItem v)
    (hothers : ∀ v ∈ others, IsShownItem v) (h : displayItems items = displayItems others) : items = others := by
  induction items generalizing others with
  | nil =>
    cases others with
    | nil => rfl
    | cons w others => exact absurd h.symm (displayItems_cons_ne_empty (hothers w List.mem_cons_self))
  | cons v items ih =>
    have hv := hitems v List.mem_cons_self
    cases others with
    | nil => exact absurd h (displayItems_cons_ne_empty hv)
    | cons w others =>
      have hw := hothers w List.mem_cons_self
      rcases items with _ | ⟨v', items⟩ <;> rcases others with _ | ⟨w', others⟩
      · rw [hv.display_inj hw h]
      · exact absurd h (displayItems_singleton_ne hv)
      · exact absurd h.symm (displayItems_singleton_ne hw)
      · have htext := congrArg String.toList h
        rw [toList_displayItems, toList_displayItems] at htext
        obtain ⟨hfirst, hrest⟩ := Text.append_cons_inj_of_free (hv.not_mem_display (.inl rfl))
          (hw.not_mem_display (.inl rfl)) htext
        rw [hv.display_inj hw (String.toList_inj.1 hfirst),
          ih (fun u hu => hitems u (List.mem_cons_of_mem _ hu)) (fun u hu => hothers u (List.mem_cons_of_mem _ hu))
            (String.toList_inj.1 (List.cons.inj hrest).2)]

theorem not_mem_displayItems {items : List Value} (h : ∀ v ∈ items, IsShownItem v) :
    '[' ∉ (displayItems items).toList := by
  induction items with
  | nil => decide
  | cons v items ih =>
    have hv := (h v List.mem_cons_self).not_mem_display (.inr rfl)
    cases items with
    | nil => exact hv
    | cons w items =>
      rw [toList_displayItems]
      simpa [hv] using ih fun u hu => h u (List.mem_cons_of_mem _ hu)

end Value

/-- The kind of an operand is seen at the start of its text. -/
theorem IsShown.display_inj {v w : Value} (hv : IsShown v) (hw : IsShown w) (h : v.display = w.display) :
    v = w := by
  have htext := congrArg String.toList h
  have hnull : Value.null.display.toList = "null".toList := rfl
  cases hv with
  | null =>
    cases hw with
    | null => rfl
    | string => simp [hnull, Value.toList_display_string] at htext
    | array => simp [hnull, Value.toList_display_array] at htext
  | string =>
    cases hw with
    | null => simp [hnull, Value.toList_display_string] at htext
    | string => rw [Value.display_string_inj.1 h]
    | array => simp [Value.toList_display_string, Value.toList_display_array] at htext
  | array hitems =>
    cases hw with
    | null => simp [hnull, Value.toList_display_array] at htext
    | string => simp [Value.toList_display_string, Value.toList_display_array] at htext
    | array hothers =>
      rw [Value.toList_display_array, Value.toList_display_array] at htext
      rw [Value.displayItems_inj hitems hothers (String.toList_inj.1 (by simpa using htext))]

/-! ## Leaves -/

/-- The leaves of compiled predicates. -/
inductive IsLeaf : Predicate → Prop where
  | compare {field : String} (hfield : ∀ c ∈ field.toList, Expression.isKeyChar c = true) (op : Comparison)
      {v : Value} (hv : IsShown v) : IsLeaf (.compare field op v)
  | text {s : String} (h : Expression.ValueText s.toList) : IsLeaf (.text s)

/-- What stands before the value of a leaf opens nothing. -/
structure IsHead (head : List Char) : Prop where
  paren : '(' ∉ head ∧ ')' ∉ head
  quote : '"' ∉ head
  bracket : '[' ∉ head

/-- Null, a string or a list. -/
inductive IsTail : List Char → Prop where
  | null : IsTail "null".toList
  | quoted {s : List Char} (h : Expression.ValueText s) : IsTail ('"' :: (s ++ ['"']))
  | bracketed {s : List Char} (h : '[' ∉ s) : IsTail ('[' :: (s ++ [']']))

theorem Comparison.word_chars (op : Comparison) : ∀ c ∈ op.word.toList, c.isAlphanum = true :=
  (Expression.Operator.comparison op).word_isAlphanum

theorem Comparison.word_inj {op op' : Comparison} (h : op.word = op'.word) : op = op' := by
  have := Expression.Operator.eq_of_word_eq (a := .comparison op) (b := .comparison op') (congrArg String.toList h)
  simpa using this

namespace Predicate

theorem toList_display_compare (field : String) (op : Comparison) (v : Value) :
    (compare field op v).display.toList =
      field.toList ++ ' ' :: (op.word.toList ++ ' ' :: v.display.toList) := by
  simp [display]

theorem toList_display_text (s : String) :
    (text s).display.toList = "text".toList ++ ' ' :: '"' :: (s.toList ++ ['"']) := by
  simp [display, Value.quoted]

theorem toList_display_combine (k : Connector) (l r : Predicate) : (combine k l r).display.toList =
    '(' :: (l.display.toList ++ ')' :: ' ' :: (k.display.toList ++ [' '])) ++
      '(' :: r.display.toList ++ [')'] := by
  simp [display]

end Predicate

namespace IsLeaf

open Predicate

variable {p q : Predicate}

theorem not_mem_field {field : List Char} (h : ∀ c ∈ field, Expression.isKeyChar c = true) {c : Char}
    (hc : Expression.isKeyChar c = false) : c ∉ field := fun hmem => by
  simpa [hc] using h c hmem

theorem not_mem_word {op : Comparison} {c : Char} (hc : c.isAlphanum = false) : c ∉ op.word.toList := fun hmem => by
  simpa [hc] using op.word_chars c hmem

theorem exists_head_tail (h : IsLeaf p) :
    ∃ head tail, IsHead head ∧ IsTail tail ∧ p.display.toList = head ++ tail := by
  cases h with
  | @compare field hfield op v hv =>
    have hhead : IsHead (field.toList ++ ' ' :: (op.word.toList ++ [' '])) := by
      have hfree {c : Char} (hkey : Expression.isKeyChar c = false) (halpha : c.isAlphanum = false)
          (hspace : c ≠ ' ') : c ∉ field.toList ++ ' ' :: (op.word.toList ++ [' ']) := by
        simp [not_mem_field hfield hkey, not_mem_word halpha, hspace]
      exact ⟨⟨hfree (by decide) (by decide) (by decide), hfree (by decide) (by decide) (by decide)⟩,
        hfree (by decide) (by decide) (by decide), hfree (by decide) (by decide) (by decide)⟩
    refine ⟨_, v.display.toList, hhead, ?_, by simp [toList_display_compare]⟩
    cases hv with
    | null => exact .null
    | string hs =>
      rw [Value.toList_display_string]
      exact .quoted hs
    | array hitems =>
      rw [Value.toList_display_array]
      exact .bracketed (Value.not_mem_displayItems hitems)
  | @text s hs =>
    exact ⟨"text ".toList, _, ⟨by decide, by decide, by decide⟩, .quoted hs, by simp [toList_display_text]⟩

theorem display_inj (hp : IsLeaf p) (hq : IsLeaf q) (h : p.display = q.display) : p = q := by
  have htext := congrArg String.toList h
  -- The second word of a comparison is no quoted text.
  have search_apart {field : String} (hfield : ∀ c ∈ field.toList, Expression.isKeyChar c = true) {op : Comparison}
      {v : Value} {s : String} :
      (Predicate.compare field op v).display.toList ≠ (Predicate.text s).display.toList := by
    intro h
    rw [toList_display_compare, toList_display_text] at h
    obtain ⟨-, hword⟩ := Text.append_cons_inj_of_free (not_mem_field hfield (by decide)) (by decide) h
    have hquote : '"' ∉ op.word.toList := not_mem_word (by decide)
    rcases List.append_eq_cons_iff.1 hword with ⟨-, hspace⟩ | ⟨rest, hfirst, -⟩
    · simp at hspace
    · exact hquote (hfirst ▸ List.mem_cons_self)
  cases hp with
  | compare hfield op hv =>
    cases hq with
    | compare hfield' op' hw =>
      rw [toList_display_compare, toList_display_compare] at htext
      obtain ⟨hfields, hrest⟩ := Text.append_cons_inj_of_free (not_mem_field hfield (by decide))
        (not_mem_field hfield' (by decide)) htext
      obtain ⟨hwords, hvalues⟩ := Text.append_cons_inj_of_free (not_mem_word (by decide))
        (not_mem_word (by decide)) hrest
      rw [String.toList_inj.1 hfields, Comparison.word_inj (String.toList_inj.1 hwords),
        hv.display_inj hw (String.toList_inj.1 hvalues)]
    | text => exact absurd htext (search_apart hfield)
  | @text s =>
    cases hq with
    | compare hfield' => exact absurd htext.symm (search_apart hfield')
    | @text s' =>
      rw [toList_display_text, toList_display_text] at htext
      have hsearch : s.toList = s'.toList := by simpa using htext
      rw [String.toList_inj.1 hsearch]

/-- No parenthesis opens a leaf. -/
theorem ne_paren_cons (h : IsLeaf p) (rest : List Char) : p.display.toList ≠ '(' :: rest := by
  obtain ⟨head, tail, hhead, htail, heq⟩ := h.exists_head_tail
  rw [heq]
  intro h
  cases head with
  | nil => cases htail <;> simp at h
  | cons c head =>
    obtain ⟨rfl, -⟩ := List.cons.inj h
    exact hhead.paren.1 List.mem_cons_self

end IsLeaf

/-! ## A leaf after a parenthesis -/

section AfterParen

variable {head head' u s s' : List Char}

/-- A value does not go on where a parenthesis opens before another leaf: it would hold that
parenthesis and not close it. -/
theorem valueText_ne_append (hs : Expression.ValueText s) (hs' : Expression.ValueText s') (hhead : IsHead head) :
    s ≠ u ++ '(' :: (head ++ '"' :: s') := by
  intro h
  have hle := hs.count_le h
  have heq := hs'.count_eq
  simp only [List.count_cons_self, List.count_append, List.count_eq_zero.2 hhead.paren.1,
    List.count_eq_zero.2 hhead.paren.2, List.count_cons_of_ne (show '"' ≠ '(' by decide),
    List.count_cons_of_ne (show '"' ≠ ')' by decide), List.count_cons_of_ne (show '(' ≠ ')' by decide)] at hle
  omega

theorem null_ne_after_paren (hhead : IsHead head) : head ++ "null".toList ≠ u ++ '(' :: s := by
  intro h
  have hmem : '(' ∈ head ++ "null".toList := by
    rw [h]
    simp
  rcases List.mem_append.1 hmem with hmem | hmem
  · exact hhead.paren.1 hmem
  · exact absurd hmem (by decide)

theorem quoted_ne_after_paren (hhead : IsHead head) (hs : Expression.ValueText s) (hhead' : IsHead head')
    (hs' : Expression.ValueText s') :
    head ++ '"' :: (s ++ ['"']) ≠ u ++ '(' :: (head' ++ '"' :: (s' ++ ['"'])) := by
  intro h
  have hclosed : (head ++ '"' :: s) ++ ['"'] = (u ++ '(' :: (head' ++ '"' :: s')) ++ ['"'] := by
    simpa using h
  -- The parenthesis opens in the value, as there is none before it.
  rcases List.append_eq_append_iff.1 (List.append_cancel_right hclosed) with ⟨m, rfl, hm⟩ | ⟨m, rfl, hm⟩
  · rcases List.cons_eq_append_iff.1 hm with ⟨-, hm⟩ | ⟨m, -, hm⟩
    · simp at hm
    · exact valueText_ne_append hs hs' hhead' hm
  · rcases List.cons_eq_append_iff.1 hm with ⟨-, hm⟩ | ⟨m, rfl, -⟩
    · simp at hm
    · exact hhead.paren.1 (by simp)

/-- There is one bracket that opens, and no parenthesis before it. -/
theorem bracketed_ne_after_paren (hhead : IsHead head) (hs : '[' ∉ s) (hs' : '[' ∉ s') :
    head ++ '[' :: (s ++ [']']) ≠ u ++ '(' :: (head' ++ '[' :: (s' ++ [']'])) := by
  intro h
  have hsplit : Text.splitLast? '[' (head ++ '[' :: (s ++ [']'])) = some (head, s ++ [']']) :=
    Text.splitLast?_append head (by simpa using hs)
  rw [h, ← List.cons_append, ← List.append_assoc, Text.splitLast?_append _ (by simpa using hs'),
    Option.some.injEq, Prod.mk.injEq] at hsplit
  exact hhead.paren.1 (hsplit.1 ▸ by simp)

/-- No leaf ends in a parenthesis that opens and another leaf after it. -/
theorem IsLeaf.ne_after_paren {p q : Predicate} (hp : IsLeaf p) (hq : IsLeaf q) (u : List Char) :
    p.display.toList ≠ u ++ '(' :: q.display.toList := by
  obtain ⟨head, tail, hhead, htail, hptext⟩ := hp.exists_head_tail
  obtain ⟨head', tail', hhead', htail', hqtext⟩ := hq.exists_head_tail
  rw [hptext, hqtext]
  intro h
  -- The last characters tell the kinds of the two values.
  have hlast := congrArg List.getLast? h
  cases htail with
  | null => exact null_ne_after_paren hhead h
  | quoted hs =>
    cases htail' with
    | quoted hs' => exact quoted_ne_after_paren hhead hs hhead' hs' h
    | null | bracketed => simp [List.getLast?_append, List.getLast?_cons] at hlast
  | bracketed hs =>
    cases htail' with
    | bracketed hs' => exact bracketed_ne_after_paren hhead hs hs' h
    | null | quoted => simp [List.getLast?_append, List.getLast?_cons] at hlast

end AfterParen

/-! ## Trees -/

/-- Trees that lean to the left, with leaves of queries. -/
inductive IsTree : Predicate → Prop where
  | leaf {p : Predicate} (h : IsLeaf p) : IsTree p
  | combine (k : Connector) {left right : Predicate} (hleft : IsTree left) (hright : IsLeaf right) :
      IsTree (.combine k left right)

namespace IsTree

open Predicate

/-- The last leaf of a text starts where the parenthesis before it opens. -/
theorem cut_last_leaf {p q : Predicate} (hp : IsLeaf p) (hq : IsLeaf q) {a b : List Char}
    (h : a ++ '(' :: p.display.toList = b ++ '(' :: q.display.toList) : a = b ∧ p = q := by
  rcases List.append_eq_append_iff.1 h with ⟨m, rfl, hm⟩ | ⟨m, rfl, hm⟩
  · rcases List.cons_eq_append_iff.1 hm with ⟨rfl, hm⟩ | ⟨m, -, hm⟩
    · have hleaf : p = q := hp.display_inj hq (String.toList_inj.1 (List.cons.inj hm).2)
      exact ⟨(List.append_nil a).symm, hleaf⟩
    · exact absurd hm (hp.ne_after_paren hq m)
  · rcases List.cons_eq_append_iff.1 hm with ⟨rfl, hm⟩ | ⟨m, -, hm⟩
    · have hleaf : p = q := hp.display_inj hq (String.toList_inj.1 (List.cons.inj hm).2.symm)
      exact ⟨List.append_nil b, hleaf⟩
    · exact absurd hm (hq.ne_after_paren hp m)

theorem cut_connector {k k' : Connector} {a b : List Char}
    (h : a ++ ')' :: ' ' :: (k.display.toList ++ [' ']) = b ++ ')' :: ' ' :: (k'.display.toList ++ [' '])) :
    a = b ∧ k = k' := by
  have hrev := congrArg List.reverse h
  cases k <;> cases k' <;> simp [Connector.display] at hrev ⊢ <;> exact hrev

theorem display_inj {p q : Predicate} (hp : IsTree p) (hq : IsTree q) (h : p.display = q.display) : p = q := by
  have htext := congrArg String.toList h
  induction hp generalizing q with
  | leaf hp =>
    cases hq with
    | leaf hq => exact hp.display_inj hq h
    | combine k hl hr => exact absurd htext (by rw [toList_display_combine]; exact hp.ne_paren_cons _)
  | @combine k left right _ hright ih =>
    cases hq with
    | leaf hq => exact absurd htext.symm (by rw [toList_display_combine]; exact hq.ne_paren_cons _)
    | @combine k' left' right' hleft' hright' =>
      rw [toList_display_combine, toList_display_combine] at htext
      obtain ⟨hrest, rfl⟩ := cut_last_leaf hright hright' (List.append_cancel_right htext)
      obtain ⟨hlefts, rfl⟩ := cut_connector (List.cons.inj hrest).2
      rw [ih hleft' (String.toList_inj.1 hlefts) hlefts]

end IsTree

namespace Expression

/-! ## Compiled queries -/

/-- What a set of values holds: nulls, numbers as written, or pieces between commas. -/
theorem mem_valueSet? {cs : List Char} {vs : List Value} (h : valueSet? cs = some vs) {v : Value} (hv : v ∈ vs) :
    v = .null ∨ (∃ n : Numeral, v = .double n.toDouble) ∨
      ∃ piece, IsPiece piece ∧ v = .string (String.ofList piece) := by
  unfold valueSet? at h
  split at h
  · cases h
  · split at h
    · cases h
      obtain ⟨piece, hpiece, rfl⟩ := List.mem_map.1 hv
      rcases nullable_cases piece with hnull | hstring
      · exact .inl hnull
      · exact .inr (.inr ⟨piece, isPiece_of_mem_pieces hpiece, hstring⟩)
    · split at h
      · next hnumbers =>
        obtain ⟨ns, hns⟩ := Option.isSome_iff_exists.1 hnumbers
        rw [numberValues?_of_numerals? hns, Option.some.injEq] at h
        rw [← h] at hv
        obtain ⟨n, -, rfl⟩ := List.mem_map.1 hv
        exact .inr (.inl ⟨n, rfl⟩)
      · cases h

theorem ValueText.bracket_free {cs : List Char} (h : ValueText cs) : '[' ∉ cs := by
  have hlist (c : Char) (hc : isListChar c = true) : c ≠ '[' := by
    rintro rfl
    exact absurd hc (by decide)
  intro hmem
  exact h.forall_mem (P := fun c => c ≠ '[') (fun c hc => hlist c (isListChar_of_isBareChar hc)) hlist (by decide)
    (by decide) '[' hmem rfl

theorem isShownItem_of_valueSet? {cs : List Char} (hcs : ValueText cs) {vs : List Value}
    (h : valueSet? cs = some vs) {v : Value} (hv : v ∈ vs) : IsShownItem v := by
  have hitem := item_of_valueSet? h hv
  rcases mem_valueSet? h hv with rfl | ⟨n, rfl⟩ | ⟨piece, hpiece, rfl⟩
  · exact .null
  · exact .double (Double.isNegative_ofRatio _ _) (Double.isNaN_ofRatio _ _ _)
  · cases hitem with
    | string hchars =>
      rw [String.toList_ofList] at hchars
      refine .string ?_ ?_
      · simpa using hpiece.free
      · rw [String.toList_ofList]
        exact fun hmem => hcs.bracket_free (hchars '[' hmem)

namespace Term

theorem isShown_operand {t : Term} (h : t.WellFormed) (hoperand : t.isOperand = true) : IsShown t.operand := by
  have verbatim : IsShown (.string (String.ofList t.value)) := .string (by simpa using h.value)
  obtain ⟨field, word, operator, value, separator⟩ := t
  cases operator with
  | text => exact verbatim
  | comparison op =>
    cases op with
    | eq | notEq =>
      simp only [operand]
      split
      · exact .null
      · exact verbatim
    | gt | gtEq | lt | ltEq => exact verbatim
    | isIn | notIn =>
      obtain ⟨vs, hvs⟩ := Option.isSome_iff_exists.1 hoperand
      simp only [operand, hvs, Option.getD_some]
      exact .array fun v hv => isShownItem_of_valueSet? h.value hvs hv

theorem isLeaf_leaf {t : Term} (h : t.WellFormed) (hoperand : t.isOperand = true) : IsLeaf t.leaf := by
  unfold leaf
  split
  · exact .compare (by simpa using h.field_chars) _ (isShown_operand h hoperand)
  · exact .text (by simpa using h.value)

end Term

theorem isTree_leftTree {t : Term} {rest : List (Connector × Term)} (ht : IsLeaf t.leaf)
    (hrest : ∀ q ∈ rest, IsLeaf q.2.leaf) : IsTree (leftTree t rest) := by
  have hfold {tree : Predicate} (h : IsTree tree) :
      IsTree (rest.foldl (fun tree q => .combine q.1 tree q.2.leaf) tree) := by
    induction rest generalizing tree with
    | nil => exact h
    | cons q rest ih =>
      obtain ⟨hq, hrest⟩ := List.forall_mem_cons.1 hrest
      exact ih hrest (.combine q.1 h hq)
  exact hfold (.leaf ht)

/-- Whatever compiles is a tree of leaves of queries. -/
theorem isTree_compile {e : Expression} {f : Filter} {p : Predicate} (h : compile e = .ok f)
    (hp : f.predicate = some p) : IsTree p := by
  obtain ⟨g, hg, hpredicate⟩ := exists_filterOf?_of_compile h
  obtain ⟨t, rest, ht, hrest, hto, hro, -, rfl⟩ := exists_chain_of_filterOf? hg (hpredicate.trans hp)
  exact isTree_leftTree (Term.isLeaf_leaf ht hto) fun q hq => Term.isLeaf_leaf (hrest q hq) (hro q hq)

/-- **The text of a compiled predicate identifies it.** Two expressions compile to the same predicate,
with the same tree, connectors, fields, operators and values, iff their predicates have the same
display text, whatever quotes, parentheses and words their values hold and however they are sorted. -/
theorem display_identifies {orderBy orderBy' : Option String} {query query' : String} {f f' : Filter}
    {p p' : Predicate} (h : compile (ofTokens orderBy query) = .ok f) (hp : f.predicate = some p)
    (h' : compile (ofTokens orderBy' query') = .ok f') (hp' : f'.predicate = some p') :
    p.display = p'.display ↔ p = p' :=
  ⟨(isTree_compile h hp).display_inj (isTree_compile h' hp'), fun h => by rw [h]⟩

/-- A leaf whose value holds what could join two leaves, and two leaves that are joined. -/
theorem display_identifies_of_joined_value :
    let numbers : Predicate := .oneOf "n" [.double ⟨0x3FF0000000000000⟩, .double ⟨0x4004000000000000⟩]
    let p : Predicate := .combine .or (.compare "a" .eq (.string "x (\") AND (b eq \")")) numbers
    let p' : Predicate := .combine .or
      (.combine .and (.compare "a" .eq (.string "x")) (.compare "b" .eq (.string "(,)"))) numbers
    compile (ofTokens none "a_eq=x (\") AND (b eq \")|n_in=(01,2.50,)") = .ok ⟨some p, none⟩ ∧
      compile (ofTokens (some "n_asc") "a_EQ=x&b_eq=(,)|n_in=(1,,2.5)") =
        .ok ⟨some p', some ⟨"n", .asc⟩⟩ ∧
      (p.display = p'.display ↔ p = p') := by
  intro numbers p p'
  have hp : compile (ofTokens none "a_eq=x (\") AND (b eq \")|n_in=(01,2.50,)") = .ok ⟨some p, none⟩ := by
    rfl
  have hp' : compile (ofTokens (some "n_asc") "a_EQ=x&b_eq=(,)|n_in=(1,,2.5)") =
      .ok ⟨some p', some ⟨"n", .asc⟩⟩ := by
    rfl
  exact ⟨hp, hp', display_identifies hp rfl hp' rfl⟩

end Expression
end Docbase
