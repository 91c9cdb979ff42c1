/-
Sets of strings: the values are made by taking the quotes out and cutting at the commas, wherever
they stand, so they are the items that the reader of the list sees only if quotes and commas do no
more than set the items apart.

The reader goes from character to character; it reads what a loop over whole items reads
(`stringItems?_eq`). The values are those of the items iff every item is a piece of its own: its text
is not empty, holds no comma, and there is a comma between it and the next one
(`stringValues_eq_iff`).
-/
import Docbase.Proofs.Expression.Accepted
import Docbase.Proofs.Expression.ItemList

namespace Docbase.Expression

/-! ## Quotes -/

theorem span_quoted {text : List Char} (h : '\'' ∉ text) (rest : List Char) :
    (text ++ '\'' :: rest).span (fun c => decide (c ≠ '\'')) = (text, '\'' :: rest) := by
  have htext : ∀ c ∈ text, decide (c ≠ '\'') = true := fun c hc => decide_eq_true fun heq => h (heq ▸ hc)
  rw [List.span_eq_takeWhile_dropWhile, List.takeWhile_append_of_pos htext, List.dropWhile_append_of_pos htext]
  simp

theorem span_unclosed {text : List Char} (h : '\'' ∉ text) :
    text.span (fun c => decide (c ≠ '\'')) = (text, []) := by
  have htext : ∀ c ∈ text, decide (c ≠ '\'') = true := fun c hc => decide_eq_true fun heq => h (heq ▸ hc)
  rw [List.span_eq_takeWhile_dropWhile, List.takeWhile_eq_self_iff.2 htext, List.dropWhile_eq_nil_iff.2 htext]

theorem of_span_quote {cs text rest : List Char} {c : Char}
    (h : cs.span (fun c => decide (c ≠ '\'')) = (text, c :: rest)) :
    cs = text ++ '\'' :: rest ∧ '\'' ∉ text := by
  rw [List.span_eq_takeWhile_dropWhile, Prod.mk.injEq] at h
  have hquote : c = '\'' := by
    have hstop := List.head?_dropWhile_not (fun c => decide (c ≠ '\'')) cs
    rw [h.2] at hstop
    simpa using hstop
  have hfree : '\'' ∉ text := fun hmem => by
    rw [← h.1] at hmem
    simpa using List.mem_takeWhile_imp hmem
  refine ⟨?_, hfree⟩
  rw [← hquote, ← h.1, ← h.2, List.takeWhile_append_dropWhile]

/-! ## Items -/

namespace StringItem

/-- An item without its quotes. -/
def text : StringItem → List Char
  | .quoted text => text
  | .hash => ['#']

/-- An item as it stands in a list. -/
def write : StringItem → List Char
  | .quoted text => '\'' :: (text ++ ['\''])
  | .hash => ['#']

/-- What an item stands for. -/
def value : StringItem → Value
  | .quoted text => nullable text
  | .hash => .null

theorem value_eq (item : StringItem) : item.value = nullable item.text := by
  cases item with
  | quoted text => rfl
  | hash => rfl

/-- Reads the item at the start of a text: a `#`, or quotes with all up to the next quote. -/
def next? : List Char → Option (StringItem × List Char)
  | '\'' :: rest =>
    match rest.span (fun c => decide (c ≠ '\'')) with
    | (_, []) => none
    | (text, _ :: rest) => some (.quoted text, rest)
  | '#' :: rest => some (.hash, rest)
  | _ => none

theorem next?_stuck {c : Char} (hquote : c ≠ '\'') (hhash : c ≠ '#') (cs : List Char) :
    next? (c :: cs) = none := by
  unfold next?
  split
  · next heq => cases heq; exact absurd rfl hquote
  · next heq => cases heq; exact absurd rfl hhash
  · rfl

theorem next?_unclosed {text : List Char} (h : '\'' ∉ text) : next? ('\'' :: text) = none := by
  simp only [next?, span_unclosed h]

theorem next?_quoted {text : List Char} (h : '\'' ∉ text) (rest : List Char) :
    next? ('\'' :: (text ++ '\'' :: rest)) = some (.quoted text, rest) := by
  simp only [next?, span_quoted h rest]

theorem next?_write {item : StringItem} (h : '\'' ∉ item.text) (rest : List Char) :
    next? (item.write ++ rest) = some (item, rest) := by
  cases item with
  | quoted text =>
    rw [write, List.cons_append, List.append_assoc, List.singleton_append]
    exact next?_quoted h rest
  | hash => rfl

theorem of_next? {cs rest : List Char} {item : StringItem} (h : next? cs = some (item, rest)) :
    '\'' ∉ item.text ∧ cs = item.write ++ rest := by
  unfold next? at h
  split at h
  · split at h
    · cases h
    · next hspan =>
      obtain ⟨rfl, hfree⟩ := of_span_quote hspan
      cases h
      exact ⟨hfree, by simp [write]⟩
  · cases h
    exact ⟨show '\'' ∉ ['#'] by decide, rfl⟩
  · cases h

end StringItem

/-! ## The loop over items -/

/-- Items, read one by one. -/
def stringReader : ItemReader StringItem where
  write := StringItem.write
  read? := StringItem.next?
  write_ne_nil {_ item _} _ := by cases item <;> simp [StringItem.write]
  eq_of_read? h := (StringItem.of_next? h).2
  read?_comma cs := StringItem.next?_stuck (by decide) (by decide) cs

namespace StringPlace

/-- What the loop over items has before it where the reader of characters stands at `cs`: the
characters of the item that is being read too, and no commas after the last one. -/
def ahead : StringPlace → List Char → List Char
  | .start, cs => cs
  | .after, cs => skipCommas cs
  | .inside read, cs => '\'' :: (read.reverse ++ cs)

/-- Places behind the start of a set. -/
inductive Behind : StringPlace → Prop where
  | after : Behind .after
  | inside {read : List Char} (h : '\'' ∉ read.reverse) : Behind (.inside read)

end StringPlace

open StringPlace (Behind)

/-- The reader of characters goes on as the loop over items does. -/
theorem stringItemsFrom?_eq {place : StringPlace} (h : place.Behind) (cs : List Char) :
    stringItemsFrom? place cs = stringReader.readAll? (place.ahead cs) := by
  induction cs generalizing place with
  | nil =>
    cases h with
    | after => exact (stringReader.readAll?_nil).symm
    | @inside read h =>
      have hnext : stringReader.read? ('\'' :: (read.reverse ++ [])) = none := by
        rw [List.append_nil]
        exact StringItem.next?_unclosed h
      exact (stringReader.readAll?_of_none (List.cons_ne_nil _ _) hnext).symm
  | cons c cs ih =>
    cases h with
    | after =>
      rw [stringItemsFrom?, StringPlace.ahead]
      by_cases hcomma : c = ','
      · rw [if_pos hcomma, hcomma, skipCommas_comma]
        exact ih .after
      rw [if_neg hcomma, skipCommas_of_ne hcomma]
      by_cases hquote : c = '\''
      · have hopened : '\'' ∉ ([] : List Char).reverse := by simp
        rw [if_pos hquote, hquote]
        exact ih (.inside hopened)
      rw [if_neg hquote]
      by_cases hhash : c = '#'
      · have hnext : stringReader.read? ('#' :: cs) = some (.hash, cs) := rfl
        rw [if_pos hhash, hhash, stringReader.readAll?_of_some hnext, ih .after, StringPlace.ahead]
      · have hnext := StringItem.next?_stuck hquote hhash cs
        rw [if_neg hhash, stringReader.readAll?_of_none (List.cons_ne_nil c cs) hnext]
    | @inside read h =>
      rw [stringItemsFrom?, StringPlace.ahead]
      by_cases hquote : c = '\''
      · have hnext : stringReader.read? ('\'' :: (read.reverse ++ '\'' :: cs)) = some (.quoted read.reverse, cs) :=
          StringItem.next?_quoted h cs
        rw [if_pos hquote, hquote, stringReader.readAll?_of_some hnext, ih .after, StringPlace.ahead]
      · have hread : '\'' ∉ (c :: read).reverse := by simpa [Ne.symm hquote] using h
        rw [if_neg hquote, ih (.inside hread), StringPlace.ahead, List.reverse_cons, List.append_assoc,
          List.singleton_append]

/-- **The reader of characters and the loop over items see the same items.** -/
theorem stringItems?_eq (cs : List Char) : stringItems? cs = stringReader.readSet? cs := by
  cases cs with
  | nil => rfl
  | cons c cs =>
    rw [stringReader.readSet?_of_ne_nil (List.cons_ne_nil c cs), stringItems?]
    by_cases hcomma : c = ','
    · rw [hcomma, stringReader.readAll?_of_none (List.cons_ne_nil ',' cs) (stringReader.read?_comma cs)]
      rfl
    · -- At any other character a set starts as it goes on after an item.
      have hafter := stringItemsFrom?_eq .after (c :: cs)
      rw [StringPlace.ahead, skipCommas_of_ne hcomma] at hafter
      rw [← hafter, stringItemsFrom?, stringItemsFrom?, if_neg hcomma]

/-! ## Values -/

variable {items : List (StringItem × Nat)}

theorem spell_of_stringItems? {cs : List Char} {read : List StringItem} (h : stringItems? cs = some read) :
    (∀ item ∈ read, '\'' ∉ item.text) ∧ ∃ items, items.map Prod.fst = read ∧ spell StringItem.write items = cs := by
  rw [stringItems?_eq] at h
  obtain ⟨items, hitems, hspell, hreads, -⟩ :=
    stringReader.spell_of_readAll? (stringReader.readAll?_of_readSet? h)
  refine ⟨fun item hitem => ?_, items, hitems, hspell⟩
  obtain ⟨_, _, hread⟩ := hreads item hitem
  exact (StringItem.of_next? hread).1

theorem stringItems?_spell (hne : items ≠ []) (h : ∀ p ∈ items, '\'' ∉ p.1.text) :
    stringItems? (spell StringItem.write items) = some (items.map Prod.fst) := by
  have hall := stringReader.readAll?_spell fun p hp rest => StringItem.next?_write (h p hp) rest
  have hspell : spell StringItem.write items ≠ [] := by
    obtain ⟨⟨item, n⟩, items, rfl⟩ := List.exists_cons_of_ne_nil hne
    cases item <;> simp [spell, StringItem.write]
  rw [stringItems?_eq, stringReader.readSet?_of_ne_nil hspell]
  exact hall

/-- Without its quotes, an item is its text. -/
theorem filter_write {item : StringItem} (h : '\'' ∉ item.text) :
    item.write.filter (fun c => c ≠ '\'') = item.text := by
  cases item with
  | quoted text =>
    have htext : text.filter (fun c => c ≠ '\'') = text :=
      List.filter_eq_self.2 fun c hc => decide_eq_true fun heq => h (heq ▸ hc)
    rw [StringItem.write, StringItem.text, List.filter_cons_of_neg (by simp), List.filter_append, htext]
    simp
  | hash => rfl

theorem filter_spell (h : ∀ p ∈ items, '\'' ∉ p.1.text) :
    (spell StringItem.write items).filter (fun c => c ≠ '\'') = spell StringItem.text items := by
  induction items with
  | nil => rfl
  | cons p items ih =>
    obtain ⟨item, n⟩ := p
    obtain ⟨hitem, hitems⟩ := List.forall_mem_cons.1 h
    rw [spell, spell, List.filter_append, List.filter_append, filter_write hitem, ih hitems]
    simp

theorem stringValues_spell (h : ∀ p ∈ items, '\'' ∉ p.1.text) :
    stringValues (spell StringItem.write items) = (pieces (spell StringItem.text items)).map nullable := by
  rw [stringValues, filter_spell h]

/-- White space apart, null is written as `#` alone. -/
theorem eq_hash_of_trimChars {cs : List Char} (h : Text.trimChars cs = ['#']) {c : Char} (hc : c ∈ cs)
    (hblank : Text.isBlank c = false) : c = '#' := by
  have hmem := Text.mem_trimChars hc hblank
  rw [h] at hmem
  exact List.mem_singleton.1 hmem

/-- A text whose value is among those of a list is a piece of it, and has no quote. -/
theorem isPiece_of_nullable_mem {text cs : List Char} (h : nullable text ∈ stringValues cs) :
    IsPiece text ∧ '\'' ∉ text := by
  obtain ⟨piece, hpiece, heq⟩ := List.mem_map.1 h
  by_cases hnull : Text.trimChars text = ['#']
  · refine ⟨⟨?_, fun hc => ?_⟩, fun hc => ?_⟩
    · rintro rfl
      exact absurd hnull (by decide)
    · exact absurd (eq_hash_of_trimChars hnull hc (by decide)) (by decide)
    · exact absurd (eq_hash_of_trimChars hnull hc (by decide)) (by decide)
  · have hstring : nullable text = .string (String.ofList text) := if_neg hnull
    rw [hstring] at heq
    rcases nullable_cases piece with hpnull | hpstring
    · rw [hpnull] at heq
      cases heq
    · rw [hpstring, Value.string.injEq, String.ofList_inj] at heq
      rw [← heq]
      refine ⟨isPiece_of_mem_pieces hpiece, fun hc => ?_⟩
      simpa using (List.mem_filter.1 (mem_of_mem_pieces hpiece hc)).2

/-- **The values are those of the items iff every item is a piece, and the items are separated.** -/
theorem stringValues_eq_iff (h : ∀ p ∈ items, '\'' ∉ p.1.text) :
    stringValues (spell StringItem.write items) = items.map (fun p => p.1.value) ↔
      (∀ p ∈ items, IsPiece p.1.text) ∧ Separated items := by
  constructor
  · intro heq
    have hpieces : ∀ p ∈ items, IsPiece p.1.text := by
      intro p hp
      have hvalue : p.1.value ∈ items.map fun p => p.1.value := List.mem_map_of_mem hp
      rw [← heq, p.1.value_eq] at hvalue
      exact (isPiece_of_nullable_mem hvalue).1
    have hlength : (pieces (spell StringItem.text items)).length = items.length := by
      rw [stringValues_spell h] at heq
      simpa using congrArg List.length heq
    exact ⟨hpieces, (length_pieces_spell_iff hpieces).1 hlength⟩
  · rintro ⟨hpieces, hsep⟩
    rw [stringValues_spell h, pieces_spell hpieces hsep, List.map_map]
    exact List.map_congr_left fun p _ => p.1.value_eq.symm

theorem valueSet?_of_stringItems? {cs : List Char} {read : List StringItem} (h : stringItems? cs = some read) :
    valueSet? ('(' :: cs ++ [')']) = some (stringValues cs) := by
  have hset : isStringSet cs = true := by rw [isStringSet, h, Option.isSome_some]
  simp only [valueSet?, unwrap?_eq_some_iff.2 rfl, hset, if_true]

/-! ## Written lists -/

/-- Strings in quotes, with a comma between any two, in parentheses. -/
def writeStrings (ss : List (List Char)) : List Char :=
  '(' :: [','].intercalate (ss.map fun s => '\'' :: (s ++ ['\''])) ++ [')']

/-- The items of such a list, each but the last with a comma after it. -/
def listed : List (List Char) → List (StringItem × Nat)
  | [] => []
  | s :: ss => (.quoted s, if ss.isEmpty then 0 else 1) :: listed ss

theorem writeStrings_eq (ss : List (List Char)) :
    writeStrings ss = '(' :: spell StringItem.write (listed ss) ++ [')'] := by
  have hspell : [','].intercalate (ss.map fun s => '\'' :: (s ++ ['\''])) = spell StringItem.write (listed ss) := by
    induction ss with
    | nil => rfl
    | cons s ss ih =>
      cases ss with
      | nil => simp [listed, spell, StringItem.write]
      | cons s' ss =>
        rw [List.map_cons] at ih
        rw [List.map_cons, List.map_cons, List.intercalate_cons_cons, ih]
        simp [listed, spell, StringItem.write]
  rw [writeStrings, hspell]

theorem separated_listed : ∀ ss : List (List Char), Separated (listed ss)
  | [] => trivial
  | [_] => ⟨fun hne => absurd rfl hne, trivial⟩
  | _ :: s :: ss => ⟨fun _ => Nat.one_pos, separated_listed (s :: ss)⟩

theorem map_listed {β : Type} (f : StringItem → β) (ss : List (List Char)) :
    (listed ss).map (fun p => f p.1) = ss.map fun s => f (.quoted s) := by
  induction ss with
  | nil => rfl
  | cons s ss ih => rw [listed, List.map_cons, ih, List.map_cons]

theorem forall_mem_listed {P : StringItem → Prop} {ss : List (List Char)} :
    (∀ p ∈ listed ss, P p.1) ↔ ∀ s ∈ ss, P (.quoted s) := by
  induction ss with
  | nil => simp [listed]
  | cons s ss ih => rw [listed, List.forall_mem_cons, ih, List.forall_mem_cons]

/-- The values of a written list are its strings iff they can stand in it as pieces. -/
theorem valueSet?_writeStrings_iff {ss : List (List Char)} (hne : ss ≠ []) :
    valueSet? (writeStrings ss) = some (ss.map nullable) ↔ ∀ s ∈ ss, IsPiece s ∧ '\'' ∉ s := by
  obtain ⟨s, ss, rfl⟩ := List.exists_cons_of_ne_nil hne
  rw [writeStrings_eq]
  constructor
  · intro h t ht
    have hvalue : nullable t ∈ (s :: ss).map nullable := List.mem_map_of_mem ht
    -- A list that starts with a quote is no set of numbers.
    have hnumbers : isNumberSet (spell StringItem.write (listed (s :: ss))) = false := by
      simp [listed, spell, StringItem.write, isNumberSet, numerals?, numeralsFrom?, show '\''.isDigit = false by decide]
    simp only [valueSet?, unwrap?_eq_some_iff.2 rfl, hnumbers, Bool.false_eq_true, if_false] at h
    split at h
    · rw [← Option.some.inj h] at hvalue
      exact isPiece_of_nullable_mem hvalue
    · cases h
  · intro h
    have hfree : ∀ p ∈ listed (s :: ss), '\'' ∉ p.1.text :=
      forall_mem_listed (P := fun item => '\'' ∉ item.text) |>.2 fun t ht => (h t ht).2
    have hpieces : ∀ p ∈ listed (s :: ss), IsPiece p.1.text :=
      forall_mem_listed (P := fun item => IsPiece item.text) |>.2 fun t ht => (h t ht).1
    have hitems := stringItems?_spell (by simp [listed]) hfree
    rw [valueSet?_of_stringItems? hitems, (stringValues_eq_iff hfree).2 ⟨hpieces, separated_listed _⟩,
      map_listed]
    rfl

theorem trim_member {field : List Char} (hne : field ≠ []) (hfield : ∀ c ∈ field, isKeyChar c = true)
    (ss : List (List Char)) : Text.trimChars (Term.member field (writeStrings ss)).write =
      (Term.member field (writeStrings ss)).write := by
  rw [Text.trimChars_eq_self_iff]
  constructor
  · intro c hc
    obtain ⟨_, _, rfl⟩ := List.exists_cons_of_ne_nil hne
    cases hc
    exact isBlank_of_isKeyChar (hfield _ List.mem_cons_self)
  · intro c hc
    have hlast : (Term.member field (writeStrings ss)).write =
        (field ++ "_in=(".toList ++ [','].intercalate (ss.map fun s => '\'' :: (s ++ ['\'']))) ++ [')'] := by
      simp [Term.write_member, writeStrings]
    rw [hlast, List.getLast?_concat] at hc
    cases hc
    decide

/-- **The values of a set of strings are the items that its reader sees iff quotes and commas only
set the items apart**: no item is empty or has a comma in its quotes, and there is a comma between
any two items. In any case they are the pieces between the commas of the list without its quotes. So
a list of quoted strings compiles to membership in exactly these strings iff the list is a value of
the grammar and each string is a piece of it. -/
theorem strings_split_iff {cs : List Char} {read : List StringItem} (h : stringItems? cs = some read)
    {field : List Char} (hne : field ≠ []) (hfield : ∀ c ∈ field, isKeyChar c = true) (ss : List (List Char)) :
    stringReader.readSet? cs = some read ∧
    (∃ items, items.map Prod.fst = read ∧ spell StringItem.write items = cs) ∧
    (∀ items, items.map Prod.fst = read → spell StringItem.write items = cs →
      valueSet? ('(' :: cs ++ [')']) = some ((pieces (spell StringItem.text items)).map nullable) ∧
      (valueSet? ('(' :: cs ++ [')']) = some (read.map StringItem.value) ↔
        (∀ item ∈ read, IsPiece item.text) ∧ Separated items)) ∧
    (compile (ofTokens none (String.ofList (field ++ "_in=".toList ++ writeStrings ss))) =
        .ok (.ofPredicate (.oneOf (String.ofList field) (ss.map nullable))) ↔
      isValue (writeStrings ss) = true ∧ ∀ s ∈ ss, IsPiece s ∧ '\'' ∉ s) := by
  obtain ⟨hread, hitems⟩ := spell_of_stringItems? h
  refine ⟨stringItems?_eq cs ▸ h, hitems, ?_, ?_⟩
  · rintro items rfl rfl
    have hfree : ∀ p ∈ items, '\'' ∉ p.1.text := fun p hp => hread p.1 (List.mem_map_of_mem hp)
    have hvalues := stringValues_eq_iff hfree
    rw [valueSet?_of_stringItems? h, Option.some.injEq, Option.some.injEq, List.map_map, List.forall_mem_map]
    exact ⟨stringValues_spell hfree, hvalues⟩
  · rw [← Term.write_member, compile_none_eq_ok_iff, Text.trim, String.toList_ofList, String.toList_ofList,
      trim_member hne hfield, filterOf?_member_iff hne hfield]
    refine and_congr_right fun hvalue => valueSet?_writeStrings_iff ?_
    rintro rfl
    cases hvalue

/-- Two strings in quotes and a null, with commas that are doubled; and a query with two strings. -/
theorem strings_split_of_two_strings :
    stringItems? "'a',,'b c',#".toList = some [.quoted ['a'], .quoted ['b', ' ', 'c'], .hash] ∧
      valueSet? "('a',,'b c',#)".toList = some [.string "a", .string "b c", .null] ∧
      compile (ofTokens none "f_in=('a','b c')") =
        .ok (.ofPredicate (.oneOf "f" [.string "a", .string "b c"])) := by
  have hread : stringItems? "'a',,'b c',#".toList = some [.quoted ['a'], .quoted ['b', ' ', 'c'], .hash] := rfl
  have hfield : ∀ c ∈ ['f'], isKeyChar c = true := List.all_eq_true.1 rfl
  obtain ⟨-, -, hitems, hquery⟩ :=
    strings_split_iff hread (List.cons_ne_nil 'f' []) hfield [['a'], ['b', ' ', 'c']]
  obtain ⟨-, hvalues⟩ := hitems [(.quoted ['a'], 2), (.quoted ['b', ' ', 'c'], 1), (.hash, 0)] rfl rfl
  have hpieces : ∀ item ∈ [StringItem.quoted ['a'], .quoted ['b', ' ', 'c'], .hash], IsPiece item.text := by
    simp only [List.forall_mem_cons]
    exact ⟨⟨by decide, by decide⟩, ⟨by decide, by decide⟩, ⟨by decide, by decide⟩, by simp⟩
  have hstrings : ∀ s ∈ [['a'], ['b', ' ', 'c']], IsPiece s ∧ '\'' ∉ s := by
    simp only [List.forall_mem_cons]
    exact ⟨⟨⟨by decide, by decide⟩, by decide⟩, ⟨⟨by decide, by decide⟩, by decide⟩, by simp⟩
  exact ⟨hread, hvalues.2 ⟨hpieces, by decide, by decide, by decide, trivial⟩, hquery.2 ⟨rfl, hstrings⟩⟩

/-- A comma in quotes cuts a string in two, an empty string is lost, and a null joins the string that
comes right after it. -/
theorem strings_split_inside_quotes :
    stringItems? "'a,b','',#'c'".toList = some [.quoted ['a', ',', 'b'], .quoted [], .hash, .quoted ['c']] ∧
      valueSet? "('a,b','',#'c')".toList = some [.string "a", .string "b", .string "#c"] ∧
      compile (ofTokens none "f_in=('a,b')") =
        .ok (.ofPredicate (.oneOf "f" [.string "a", .string "b"])) :=
  ⟨rfl, rfl, rfl⟩

end Docbase.Expression
