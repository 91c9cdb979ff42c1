/-
Sets of numbers: the numerals that the reader of a list sees are the pieces between its commas.

The reader goes from character to character; it reads what a loop over whole numerals reads
(`numerals?_eq`). A numeral takes all the digits there are, so that nothing follows it that could
start another one (`numeralReader_apart`): the numerals of a set are separated by commas, and
every piece is one of them (`numbers_split`).
-/
import Docbase.Proofs.Expression.ItemList
import Mathlib.Data.List.TakeDrop

namespace Docbase.Expression

/-! ## Digits -/

/-- A run of digits. -/
structure IsDigits (cs : List Char) : Prop where
  ne_nil : cs ≠ []
  digits : ∀ c ∈ cs, c.isDigit = true

theorem isDigits_singleton {c : Char} (hc : c.isDigit = true) : IsDigits [c] := ⟨by simp, by simpa using hc⟩

theorem isDigits_reverse_cons {c : Char} (hc : c.isDigit = true) {read : List Char} (h : IsDigits read.reverse) :
    IsDigits (c :: read).reverse := by
  refine ⟨by simp, fun d hd => ?_⟩
  rcases List.mem_cons.1 (List.mem_reverse.1 hd) with rfl | hd
  · exact hc
  · exact h.digits d (List.mem_reverse.2 hd)

/-- Whether a text starts with no digit. -/
def StopsDigits (cs : List Char) : Prop := ∀ c, cs.head? = some c → c.isDigit = false

theorem stopsDigits_nil : StopsDigits [] := by
  intro c hc
  cases hc

theorem stopsDigits_cons {c : Char} (h : c.isDigit = false) (cs : List Char) : StopsDigits (c :: cs) := by
  intro d hd
  cases hd
  exact h

theorem stopsDigits_point (cs : List Char) : StopsDigits ('.' :: cs) := stopsDigits_cons (by decide) cs

theorem span_digits {digits rest : List Char} (hd : ∀ c ∈ digits, c.isDigit = true) (hr : StopsDigits rest) :
    (digits ++ rest).span Char.isDigit = (digits, rest) := by
  rw [List.span_eq_takeWhile_dropWhile, List.takeWhile_append_of_pos hd, List.dropWhile_append_of_pos hd]
  cases rest with
  | nil => simp
  | cons c rest => simp [hr c rfl]

theorem of_span_digits {cs digits rest : List Char} (h : cs.span Char.isDigit = (digits, rest)) :
    cs = digits ++ rest ∧ (∀ c ∈ digits, c.isDigit = true) ∧ StopsDigits rest := by
  rw [List.span_eq_takeWhile_dropWhile, Prod.mk.injEq] at h
  obtain ⟨rfl, rfl⟩ := h
  refine ⟨List.takeWhile_append_dropWhile.symm, fun c hc => List.mem_takeWhile_imp hc, fun c hc => ?_⟩
  have hstop := List.head?_dropWhile_not Char.isDigit cs
  rw [hc] at hstop
  simpa using hstop

/-! ## Numerals -/

namespace Numeral

/-- Digits, or digits around a point. -/
structure WellFormed (n : Numeral) : Prop where
  whole : IsDigits n.whole
  fraction : ∀ c ∈ n.fraction, c.isDigit = true

/-- Reads the numeral at the start of a text: all the digits there are and, if a point follows
them, all the digits after it. -/
def next? (cs : List Char) : Option (Numeral × List Char) :=
  match cs.span Char.isDigit with
  | ([], _) => none
  | (whole, '.' :: rest) =>
    match rest.span Char.isDigit with
    | ([], _) => none
    | (fraction, rest) => some (⟨whole, fraction⟩, rest)
  | (whole, rest) => some (⟨whole, []⟩, rest)

theorem next?_of_stopsDigits {cs : List Char} (h : StopsDigits cs) : next? cs = none := by
  have hspan : cs.span Char.isDigit = ([], cs) := @span_digits [] cs (by simp) h
  simp only [next?, hspan]

theorem next?_whole {whole rest : List Char} (hw : IsDigits whole) (hr : StopsDigits rest)
    (hpoint : rest.head? ≠ some '.') : next? (whole ++ rest) = some (⟨whole, []⟩, rest) := by
  have hspan := span_digits hw.digits hr
  obtain ⟨c, cs, rfl⟩ := List.exists_cons_of_ne_nil hw.ne_nil
  rw [next?, hspan]
  split
  · next heq => cases heq
  · next heq => cases heq; exact absurd rfl hpoint
  · next heq => cases heq; rfl

theorem next?_point {whole rest : List Char} (hw : IsDigits whole) (hr : StopsDigits rest) :
    next? (whole ++ '.' :: rest) = none := by
  have hspan := span_digits hw.digits (stopsDigits_point rest)
  have hrest : rest.span Char.isDigit = ([], rest) := @span_digits [] rest (by simp) hr
  obtain ⟨c, cs, rfl⟩ := List.exists_cons_of_ne_nil hw.ne_nil
  simp only [next?, hspan, hrest]

theorem next?_fraction {whole fraction rest : List Char} (hw : IsDigits whole) (hf : IsDigits fraction)
    (hr : StopsDigits rest) :
    next? (whole ++ '.' :: (fraction ++ rest)) = some (⟨whole, fraction⟩, rest) := by
  have hspan := span_digits hw.digits (stopsDigits_point (fraction ++ rest))
  have hrest := span_digits hf.digits hr
  obtain ⟨c, cs, rfl⟩ := List.exists_cons_of_ne_nil hw.ne_nil
  obtain ⟨d, ds, rfl⟩ := List.exists_cons_of_ne_nil hf.ne_nil
  simp only [next?, hspan, hrest]

/-- The numeral that is read is the start of the text, and no digit follows it. -/
theorem of_next? {cs rest : List Char} {n : Numeral} (h : next? cs = some (n, rest)) :
    n.WellFormed ∧ cs = n.write ++ rest ∧ StopsDigits rest := by
  unfold next? at h
  split at h
  · cases h
  · next whole more hne hspan =>
    obtain ⟨rfl, hwhole, -⟩ := of_span_digits hspan
    split at h
    · cases h
    · next fraction more' hnef hspanf =>
      obtain ⟨rfl, hfraction, hstops⟩ := of_span_digits hspanf
      cases h
      have hempty : fraction.isEmpty = false := by simpa using hnef
      refine ⟨⟨⟨by simpa using hne, hwhole⟩, hfraction⟩, ?_, hstops⟩
      simp [write, hempty]
  · next whole more hne hpoint hspan =>
    obtain ⟨rfl, hwhole, hstops⟩ := of_span_digits hspan
    cases h
    exact ⟨⟨⟨by simpa using hne, hwhole⟩, by simp⟩, rfl, hstops⟩

theorem WellFormed.write_cases {n : Numeral} (h : n.WellFormed) :
    (n.fraction = [] ∧ n.write = n.whole) ∨ (IsDigits n.fraction ∧ n.write = n.whole ++ '.' :: n.fraction) := by
  by_cases hf : n.fraction = []
  · exact .inl ⟨hf, by rw [write, hf]; rfl⟩
  · exact .inr ⟨⟨hf, h.fraction⟩, by rw [write, if_neg (by simpa using hf)]⟩

theorem WellFormed.mem_write {n : Numeral} (h : n.WellFormed) {c : Char} (hc : c ∈ n.write) :
    c.isDigit = true ∨ c = '.' := by
  rcases h.write_cases with ⟨-, hwrite⟩ | ⟨hf, hwrite⟩
  · rw [hwrite] at hc
    exact .inl (h.whole.digits c hc)
  · rw [hwrite, List.mem_append, List.mem_cons] at hc
    rcases hc with hc | rfl | hc
    · exact .inl (h.whole.digits c hc)
    · exact .inr rfl
    · exact .inl (hf.digits c hc)

theorem WellFormed.isPiece {n : Numeral} (h : n.WellFormed) : IsPiece n.write := by
  refine ⟨?_, fun hcomma => ?_⟩
  · rcases h.write_cases with ⟨-, hwrite⟩ | ⟨-, hwrite⟩
    · rw [hwrite]
      exact h.whole.ne_nil
    · simp [hwrite]
  · rcases h.mem_write hcomma with hdigit | hpoint
    · exact absurd hdigit (by decide)
    · exact absurd hpoint (by decide)

/-- A numeral that was written is read back as a whole piece. -/
theorem WellFormed.read?_write {n : Numeral} (h : n.WellFormed) : read? n.write = some n := by
  obtain ⟨whole, fraction⟩ := n
  have hw : whole.isEmpty = false := by simpa using h.whole.ne_nil
  rcases h.write_cases with ⟨rfl, hwrite⟩ | ⟨hf, hwrite⟩
  · have hspan := span_digits h.whole.digits stopsDigits_nil
    rw [List.append_nil] at hspan
    simp only [hwrite, read?, hspan, hw, Bool.false_eq_true, if_false]
  · have hspan := span_digits h.whole.digits (stopsDigits_point fraction)
    have hall : fraction.all Char.isDigit = true := List.all_eq_true.2 hf.digits
    have hempty : fraction.isEmpty = false := by simpa using hf.ne_nil
    simp only [hwrite, read?, hspan, hw, hempty, hall, Bool.not_true, Bool.or_false, Bool.false_eq_true, if_false]

end Numeral

/-! ## The loop over numerals -/

/-- Numerals, read one by one. -/
def numeralReader : ItemReader Numeral where
  write := Numeral.write
  read? := Numeral.next?
  write_ne_nil h := (Numeral.of_next? h).1.isPiece.ne_nil
  eq_of_read? h := (Numeral.of_next? h).2.1
  read?_comma cs := Numeral.next?_of_stopsDigits (stopsDigits_cons (by decide) cs)

theorem numeralReader_apart : numeralReader.Apart := fun _ _ _ h =>
  Numeral.next?_of_stopsDigits (Numeral.of_next? h).2.2

namespace NumberPlace

/-- What the loop over numerals has before it where the reader of characters stands at `cs`: the
characters of the numeral that is being read too, and no commas after the last one. -/
def ahead : NumberPlace → List Char → List Char
  | .start, cs => cs
  | .after, cs => skipCommas cs
  | .whole read, cs => read.reverse ++ cs
  | .point digits, cs => digits ++ '.' :: cs
  | .fraction digits read, cs => digits ++ '.' :: (read.reverse ++ cs)

/-- Places behind the start of a set, with the digits that were read. -/
inductive Inside : NumberPlace → Prop where
  | after : Inside .after
  | whole {read : List Char} (h : IsDigits read.reverse) : Inside (.whole read)
  | point {digits : List Char} (h : IsDigits digits) : Inside (.point digits)
  | fraction {digits read : List Char} (hw : IsDigits digits) (h : IsDigits read.reverse) :
      Inside (.fraction digits read)

end NumberPlace

open NumberPlace (Inside)

theorem readAll?_stuck {c : Char} (hc : c.isDigit = false) (cs : List Char) :
    numeralReader.readAll? (c :: cs) = none :=
  numeralReader.readAll?_of_none (List.cons_ne_nil c cs) (Numeral.next?_of_stopsDigits (stopsDigits_cons hc cs))

/-- A numeral at the end of a set is the last of them. -/
theorem readAll?_last {cs : List Char} {n : Numeral} (h : Numeral.next? cs = some (n, [])) :
    numeralReader.readAll? cs = some [n] := by
  rw [numeralReader.readAll?_of_some h, skipCommas_nil, ItemReader.readAll?_nil, Option.map_some]

/-- After a numeral the set goes on with a comma, or it is none. -/
theorem readAll?_ended {cs rest : List Char} {n : Numeral} {c : Char} (hc : c.isDigit = false)
    (h : Numeral.next? cs = some (n, c :: rest)) : numeralReader.readAll? cs =
      if c = ',' then (numeralReader.readAll? (skipCommas rest)).map (n :: ·) else none := by
  rw [numeralReader.readAll?_of_some h]
  split
  · next hcomma => rw [hcomma, skipCommas_comma]
  · next hcomma => rw [skipCommas_of_ne hcomma, readAll?_stuck hc, Option.map_none]

/-- The reader of characters goes on as the loop over numerals does. -/
theorem numeralsFrom?_eq {place : NumberPlace} (h : place.Inside) (cs : List Char) :
    numeralsFrom? place cs = numeralReader.readAll? (place.ahead cs) := by
  induction cs generalizing place with
  | nil =>
    cases h with
    | after => exact (numeralReader.readAll?_nil).symm
    | whole h =>
      exact (readAll?_last (Numeral.next?_whole h stopsDigits_nil (by simp))).symm
    | point h =>
      exact (numeralReader.readAll?_of_none (by simp) (Numeral.next?_point h stopsDigits_nil)).symm
    | fraction hw h =>
      exact (readAll?_last (Numeral.next?_fraction hw h stopsDigits_nil)).symm
  | cons c cs ih =>
    cases h with
    | after =>
      rw [numeralsFrom?, NumberPlace.ahead]
      by_cases hcomma : c = ','
      · rw [if_pos hcomma, hcomma, skipCommas_comma]
        exact ih .after
      · rw [if_neg hcomma, skipCommas_of_ne hcomma]
        cases hc : c.isDigit with
        | true => exact ih (.whole (isDigits_singleton hc))
        | false => exact (readAll?_stuck hc cs).symm
    | @whole read h =>
      rw [numeralsFrom?, NumberPlace.ahead]
      cases hc : c.isDigit with
      | true =>
        rw [if_pos rfl, ih (.whole (isDigits_reverse_cons hc h)), NumberPlace.ahead,
          List.reverse_cons, List.append_assoc, List.singleton_append]
      | false =>
        rw [if_neg Bool.false_ne_true]
        by_cases hpoint : c = '.'
        · rw [if_pos hpoint, ih (.point h), NumberPlace.ahead, hpoint]
        · have hnext := Numeral.next?_whole h (stopsDigits_cons hc cs) (by simpa using hpoint)
          rw [if_neg hpoint, readAll?_ended hc hnext, ih .after, NumberPlace.ahead]
    | @point digits h =>
      rw [numeralsFrom?, NumberPlace.ahead]
      cases hc : c.isDigit with
      | true => exact ih (.fraction h (isDigits_singleton hc))
      | false =>
        have hnext := Numeral.next?_point h (stopsDigits_cons hc cs)
        exact (numeralReader.readAll?_of_none (by simp) hnext).symm
    | @fraction digits read hw h =>
      rw [numeralsFrom?, NumberPlace.ahead]
      cases hc : c.isDigit with
      | true =>
        rw [if_pos rfl, ih (.fraction hw (isDigits_reverse_cons hc h)), NumberPlace.ahead,
          List.reverse_cons, List.append_assoc, List.singleton_append]
      | false =>
        have hnext := Numeral.next?_fraction hw h (stopsDigits_cons hc cs)
        rw [if_neg Bool.false_ne_true, readAll?_ended hc hnext, ih .after, NumberPlace.ahead]

/-- **The reader of characters and the loop over numerals see the same numerals.** -/
theorem numerals?_eq (cs : List Char) : numerals? cs = numeralReader.readSet? cs := by
  cases cs with
  | nil => rfl
  | cons c cs =>
    rw [numerals?, numeralsFrom?, numeralReader.readSet?_of_ne_nil (List.cons_ne_nil c cs)]
    cases hc : c.isDigit with
    | true =>
      have hinside : Inside (.whole [c]) := .whole (isDigits_singleton hc)
      exact numeralsFrom?_eq hinside cs
    | false => exact (readAll?_stuck hc cs).symm

/-! ## Sets of numbers -/

/-- A set of numbers starts with a digit, and no set of strings does. -/
theorem isStringSet_of_numerals? {cs : List Char} {ns : List Numeral} (h : numerals? cs = some ns) :
    isStringSet cs = false := by
  cases cs with
  | nil => cases h
  | cons c cs =>
    rw [numerals?, numeralsFrom?] at h
    split at h
    · next hc =>
      have hquote : c ≠ '\'' := by rintro rfl; exact absurd hc (by decide)
      have hhash : c ≠ '#' := by rintro rfl; exact absurd hc (by decide)
      rw [isStringSet, stringItems?, stringItemsFrom?, if_neg hquote, if_neg hhash, Option.isSome_none]
    · cases h

/-- Every numeral of a set stands in the text with commas between them, and is a number that can be
read back. -/
theorem spell_of_numerals? {cs : List Char} {ns : List Numeral} (h : numerals? cs = some ns) :
    (∀ n ∈ ns, n.WellFormed) ∧
      ∃ items, items.map Prod.fst = ns ∧ spell Numeral.write items = cs ∧ Separated items := by
  rw [numerals?_eq] at h
  obtain ⟨items, hitems, hspell, hreads, hsep⟩ :=
    numeralReader.spell_of_readAll? (numeralReader.readAll?_of_readSet? h)
  refine ⟨fun n hn => ?_, items, hitems, hspell, hsep numeralReader_apart⟩
  obtain ⟨_, _, hread⟩ := hreads n hn
  exact (Numeral.of_next? hread).1

theorem pieces_of_numerals? {cs : List Char} {ns : List Numeral} (h : numerals? cs = some ns) :
    pieces cs = ns.map Numeral.write := by
  obtain ⟨hns, items, rfl, rfl, hsep⟩ := spell_of_numerals? h
  rw [pieces_spell (fun p hp => (hns p.1 (List.mem_map_of_mem hp)).isPiece) hsep, List.map_map]
  rfl

/-- No piece of a set of numbers fails to be a number. -/
theorem numberValues?_of_numerals? {cs : List Char} {ns : List Numeral} (h : numerals? cs = some ns) :
    numberValues? cs = some (ns.map fun n => .double n.toDouble) := by
  have hns := (spell_of_numerals? h).1
  rw [numberValues?, pieces_of_numerals? h]
  clear h
  induction ns with
  | nil => rfl
  | cons n ns ih =>
    rw [List.map_cons, List.mapM_cons, (hns n List.mem_cons_self).read?_write,
      ih fun m hm => hns m (List.mem_cons_of_mem _ hm)]
    rfl

/-- **The pieces of a set of numbers are the numerals that its reader sees.** They are read from
left to right with all their digits, have a comma between any two of them, and can be read back one
by one, so that the values of the set are the doubles of its numerals. Such a text is no set of
strings. -/
theorem numbers_split {cs : List Char} (h : isNumberSet cs = true) :
    ∃ ns, numerals? cs = some ns ∧ numeralReader.readSet? cs = some ns ∧
      (∃ items, items.map Prod.fst = ns ∧ spell Numeral.write items = cs ∧ Separated items) ∧
      (∀ n ∈ ns, n.WellFormed ∧ Numeral.read? n.write = some n) ∧
      pieces cs = ns.map Numeral.write ∧
      valueSet? ('(' :: cs ++ [')']) = some (ns.map fun n => .double n.toDouble) ∧
      isStringSet cs = false := by
  obtain ⟨ns, hns⟩ := Option.isSome_iff_exists.1 h
  obtain ⟨hwell, hitems⟩ := spell_of_numerals? hns
  have hstring := isStringSet_of_numerals? hns
  refine ⟨ns, hns, numerals?_eq cs ▸ hns, hitems, fun n hn => ⟨hwell n hn, (hwell n hn).read?_write⟩,
    pieces_of_numerals? hns, ?_, hstring⟩
  simp only [valueSet?, unwrap?_eq_some_iff.2 rfl, hstring, h, Bool.false_eq_true, if_false, if_true]
  exact numberValues?_of_numerals? hns

/-- A set with leading zeros, a point, and commas that are doubled and left over. -/
theorem numbers_split_of_three_numerals :
    isNumberSet "007,2.50,,1,".toList = true ∧
      pieces "007,2.50,,1,".toList = ["007".toList, "2.50".toList, "1".toList] ∧
      valueSet? "(007,2.50,,1,)".toList =
        some [.double ⟨0x401C000000000000⟩, .double ⟨0x4004000000000000⟩, .double ⟨0x3FF0000000000000⟩] := by
  have hset : isNumberSet "007,2.50,,1,".toList = true := by decide
  obtain ⟨ns, hns, -, -, -, hpieces, hvalues, -⟩ := numbers_split hset
  cases hns
  exact ⟨hset, hpieces, hvalues⟩

end Docbase.Expression
