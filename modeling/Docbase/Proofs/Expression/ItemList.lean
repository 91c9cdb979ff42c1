/-
Lists of items, each followed by any number of commas (`spell`), seen from two sides.

A reader takes one item from the start of a text and passes over the commas after it,
again and again (`ItemReader.readAll?`). What it reads spells the text
(`spell_of_readAll?`), and what is spelled is read back (`readAll?_spell`).

A splitter cuts the text at its commas. It gives as many pieces as there are items iff
there is a comma between any two of them (`length_pieces_spell_iff`), and then each item
as it is written (`pieces_spell`).
-/
import Docbase.Proofs.Expression.ValueSet
import Mathlib.Data.List.TakeWhile

namespace Docbase

namespace Text

theorem not_mem_of_mem_splitAll {sep : Char} {cs part : List Char} (h : part ∈ splitAll sep cs) : sep ∉ part := by
  induction cs generalizing part with
  | nil =>
    rw [List.mem_singleton.1 h]
    exact List.not_mem_nil
  | cons x cs ih =>
    rw [splitAll] at h
    split at h
    · rcases List.mem_cons.1 h with rfl | h
      · exact List.not_mem_nil
      · exact ih h
    · next hx =>
      split at h
      · next first more hrest =>
        rcases List.mem_cons.1 h with rfl | h
        · have hfirst : sep ∉ first := ih (hrest ▸ List.mem_cons_self)
          simp [Ne.symm hx, hfirst]
        · exact ih (hrest ▸ List.mem_cons_of_mem _ h)
      · rw [List.mem_singleton.1 h]
        simpa using Ne.symm hx

theorem splitAll_eq (c : Char) (cs : List Char) : splitAll c cs = cs.splitOn c := by
  induction cs with
  | nil => rfl
  | cons x cs ih =>
    rw [splitAll, ih, List.splitOn_cons_eq_if_modifyHead]
    by_cases hx : x = c
    · rw [if_pos hx, if_pos (beq_iff_eq.2 hx)]
    · rw [if_neg hx, if_neg (by simpa using hx)]
      obtain ⟨part, more, hrest⟩ := List.exists_cons_of_ne_nil (List.splitOn_ne_nil c cs)
      rw [hrest, List.modifyHead_cons]

end Text

namespace Expression

variable {α : Type}

/-! ## Pieces -/

/-- Texts that can stand between commas as one piece. -/
structure IsPiece (w : List Char) : Prop where
  ne_nil : w ≠ []
  free : ',' ∉ w

theorem isPiece_of_mem_pieces {cs w : List Char} (h : w ∈ pieces cs) : IsPiece w := by
  obtain ⟨hmem, hne⟩ := List.mem_filter.1 h
  exact ⟨by simpa using hne, Text.not_mem_of_mem_splitAll hmem⟩

theorem pieces_nil : pieces [] = [] := rfl

theorem pieces_comma (cs : List Char) : pieces (',' :: cs) = pieces cs := by
  simp [pieces, Text.splitAll]

theorem pieces_commas (n : Nat) (cs : List Char) : pieces (List.replicate n ',' ++ cs) = pieces cs := by
  induction n with
  | zero => rfl
  | succ n ih => rw [List.replicate_succ, List.cons_append, pieces_comma, ih]

theorem IsPiece.pieces_eq {w : List Char} (h : IsPiece w) : pieces w = [w] := by
  rw [pieces, Text.splitAll_eq, List.splitOn_eq_singleton h.free]
  simpa using h.ne_nil

theorem IsPiece.pieces_comma {w : List Char} (h : IsPiece w) (cs : List Char) :
    pieces (w ++ ',' :: cs) = w :: pieces cs := by
  rw [pieces, pieces, Text.splitAll_eq, Text.splitAll_eq, List.splitOn_append_cons_self_of_not_mem h.free]
  simp [h.ne_nil]

/-- A character that is no comma belongs to the piece that starts after it. -/
theorem length_pieces_cons {c d : Char} (hc : c ≠ ',') (hd : d ≠ ',') (cs : List Char) :
    (pieces (c :: d :: cs)).length = (pieces (d :: cs)).length := by
  obtain ⟨part, more, hrest⟩ := List.exists_cons_of_ne_nil (List.splitOn_ne_nil ',' cs)
  rw [← Text.splitAll_eq] at hrest
  simp only [pieces, Text.splitAll, if_neg hc, if_neg hd, hrest]
  rfl

/-- Without a comma between them, two texts share a piece. -/
theorem IsPiece.length_pieces_glued {w : List Char} (h : IsPiece w) {d : Char} (hd : d ≠ ',') (cs : List Char) :
    (pieces (w ++ d :: cs)).length = (pieces (d :: cs)).length := by
  obtain ⟨hne, hfree⟩ := h
  induction w with
  | nil => exact absurd rfl hne
  | cons c w ih =>
    have hc : c ≠ ',' := fun heq => hfree (heq ▸ List.mem_cons_self)
    cases w with
    | nil => exact length_pieces_cons hc hd cs
    | cons c' w =>
      have hc' : c' ≠ ',' := fun heq => hfree (heq ▸ by simp)
      have hrest := ih (by simp) fun hmem => hfree (List.mem_cons_of_mem _ hmem)
      rw [List.cons_append, List.cons_append, length_pieces_cons hc hc', ← hrest, List.cons_append]

/-! ## Items with commas after them -/

/-- Items as text, each with a number of commas after it. -/
def spell (write : α → List Char) : List (α × Nat) → List Char
  | [] => []
  | (a, n) :: rest => write a ++ (List.replicate n ',' ++ spell write rest)

/-- Whether there is a comma between any two items. -/
def Separated : List (α × Nat) → Prop
  | [] => True
  | (_, n) :: rest => (rest ≠ [] → 0 < n) ∧ Separated rest

variable {write : α → List Char} {items : List (α × Nat)}

theorem pieces_spell_cons {a : α} {n : Nat} (ha : IsPiece (write a)) (hn : 0 < n) :
    pieces (spell write ((a, n) :: items)) = write a :: pieces (spell write items) := by
  obtain ⟨n, rfl⟩ := Nat.exists_eq_succ_of_ne_zero (Nat.ne_of_gt hn)
  rw [spell, List.replicate_succ, List.cons_append, ha.pieces_comma, pieces_commas]

theorem pieces_spell_last {a : α} {n : Nat} (ha : IsPiece (write a)) :
    pieces (spell write [(a, n)]) = [write a] := by
  cases n with
  | zero => simpa [spell] using ha.pieces_eq
  | succ n => rw [pieces_spell_cons ha n.succ_pos, spell, pieces_nil]

/-- An item right before another one adds no piece. -/
theorem length_pieces_spell_glued {a b : α} {n : Nat} (ha : IsPiece (write a)) (hb : IsPiece (write b)) :
    (pieces (spell write ((a, 0) :: (b, n) :: items))).length = (pieces (spell write ((b, n) :: items))).length := by
  obtain ⟨d, w, hw⟩ := List.exists_cons_of_ne_nil hb.ne_nil
  have hd : d ≠ ',' := fun heq => hb.free (by rw [hw, heq]; exact List.mem_cons_self)
  rw [spell, List.replicate_zero, List.nil_append, spell, hw, List.cons_append, ha.length_pieces_glued hd]

/-- Separated items come out of cutting one by one, as they are written. -/
theorem pieces_spell (h : ∀ p ∈ items, IsPiece (write p.1)) (hsep : Separated items) :
    pieces (spell write items) = items.map fun p => write p.1 := by
  induction items with
  | nil => rfl
  | cons p items ih =>
    obtain ⟨a, n⟩ := p
    obtain ⟨hn, hsep⟩ := hsep
    have ha : IsPiece (write a) := h (a, n) List.mem_cons_self
    rcases items with _ | ⟨q, items⟩
    · exact pieces_spell_last ha
    · rw [pieces_spell_cons ha (hn (List.cons_ne_nil q items)),
        ih (fun p hp => h p (List.mem_cons_of_mem _ hp)) hsep]
      rfl

theorem length_pieces_spell_le (h : ∀ p ∈ items, IsPiece (write p.1)) :
    (pieces (spell write items)).length ≤ items.length := by
  induction items with
  | nil => exact Nat.le_refl _
  | cons p items ih =>
    obtain ⟨a, n⟩ := p
    have ha : IsPiece (write a) := h (a, n) List.mem_cons_self
    have hrest := ih fun p hp => h p (List.mem_cons_of_mem _ hp)
    rcases Nat.eq_zero_or_pos n with rfl | hn
    · rcases items with _ | ⟨⟨b, m⟩, items⟩
      · rw [pieces_spell_last ha, List.length_singleton, List.length_singleton]
      · rw [length_pieces_spell_glued ha (h (b, m) (by simp))]
        exact Nat.le_succ_of_le hrest
    · rw [pieces_spell_cons ha hn]
      exact Nat.succ_le_succ hrest

/-- There are as many pieces as items iff the items are separated. -/
theorem length_pieces_spell_iff (h : ∀ p ∈ items, IsPiece (write p.1)) :
    (pieces (spell write items)).length = items.length ↔ Separated items := by
  refine ⟨fun hlength => ?_, fun hsep => by rw [pieces_spell h hsep, List.length_map]⟩
  induction items with
  | nil => trivial
  | cons p items ih =>
    obtain ⟨a, n⟩ := p
    have ha : IsPiece (write a) := h (a, n) List.mem_cons_self
    have hitems : ∀ p ∈ items, IsPiece (write p.1) := fun p hp => h p (List.mem_cons_of_mem _ hp)
    rcases Nat.eq_zero_or_pos n with rfl | hn
    · rcases items with _ | ⟨⟨b, m⟩, items⟩
      · exact ⟨fun hne => absurd rfl hne, trivial⟩
      · rw [length_pieces_spell_glued ha (h (b, m) (by simp))] at hlength
        have hle := length_pieces_spell_le hitems
        rw [hlength] at hle
        exact absurd hle (Nat.not_succ_le_self _)
    · rw [pieces_spell_cons ha hn, List.length_cons, List.length_cons] at hlength
      exact ⟨fun _ => hn, ih hitems (Nat.succ.inj hlength)⟩

/-- The characters of a list are commas and those of its items. -/
theorem mem_spell {c : Char} (h : c ∈ spell write items) : c = ',' ∨ ∃ p ∈ items, c ∈ write p.1 := by
  induction items with
  | nil => cases h
  | cons p items ih =>
    obtain ⟨a, n⟩ := p
    rw [spell, List.mem_append, List.mem_append] at h
    rcases h with h | h | h
    · exact .inr ⟨(a, n), List.mem_cons_self, h⟩
    · exact .inl (List.eq_of_mem_replicate h)
    · rcases ih h with h | ⟨p, hp, h⟩
      · exact .inl h
      · exact .inr ⟨p, List.mem_cons_of_mem _ hp, h⟩

theorem mem_spell_of_mem {c : Char} {p : α × Nat} (hp : p ∈ items) (hc : c ∈ write p.1) :
    c ∈ spell write items := by
  induction items with
  | nil => cases hp
  | cons q items ih =>
    rw [spell, List.mem_append, List.mem_append]
    rcases List.mem_cons.1 hp with rfl | hp
    · exact .inl hc
    · exact .inr (.inr (ih hp))

/-! ## Reading items -/

/-- Passes over commas. -/
def skipCommas (cs : List Char) : List Char := cs.dropWhile (· = ',')

@[simp] theorem skipCommas_nil : skipCommas [] = [] := rfl

@[simp] theorem skipCommas_comma (cs : List Char) : skipCommas (',' :: cs) = skipCommas cs :=
  List.dropWhile_cons_of_pos (decide_eq_true rfl)

theorem skipCommas_of_ne {c : Char} (h : c ≠ ',') (cs : List Char) : skipCommas (c :: cs) = c :: cs :=
  List.dropWhile_cons_of_neg (by simpa using h)

theorem skipCommas_commas (n : Nat) (cs : List Char) : skipCommas (List.replicate n ',' ++ cs) = skipCommas cs :=
  List.dropWhile_append_of_pos (by simp)

theorem length_skipCommas_le (cs : List Char) : (skipCommas cs).length ≤ cs.length :=
  (List.dropWhile_suffix _).length_le

theorem exists_commas (cs : List Char) : ∃ n, cs = List.replicate n ',' ++ skipCommas cs := by
  refine ⟨(cs.takeWhile (· = ',')).length, ?_⟩
  have hcommas : cs.takeWhile (· = ',') = List.replicate (cs.takeWhile (· = ',')).length ',' :=
    List.eq_replicate_of_mem fun c hc => by simpa using List.mem_takeWhile_imp hc
  rw [← hcommas, skipCommas, List.takeWhile_append_dropWhile]

/-- A reader of one item at the start of a text. An item takes at least one character, and none
starts with a comma. -/
structure ItemReader (α : Type) where
  write : α → List Char
  read? : List Char → Option (α × List Char)
  write_ne_nil : ∀ {cs a rest}, read? cs = some (a, rest) → write a ≠ []
  eq_of_read? : ∀ {cs a rest}, read? cs = some (a, rest) → cs = write a ++ rest
  read?_comma : ∀ cs, read? (',' :: cs) = none

namespace ItemReader

variable (r : ItemReader α)

theorem length_lt_of_read? {cs rest : List Char} {a : α} (h : r.read? cs = some (a, rest)) :
    rest.length < cs.length := by
  rw [r.eq_of_read? h, List.length_append]
  have := List.length_pos_iff.2 (r.write_ne_nil h)
  omega

/-- Reads items to the end of a text, and passes over the commas after each. -/
def readAll? (cs : List Char) : Option (List α) :=
  if cs.isEmpty then some []
  else
    match _hread : r.read? cs with
    | none => none
    | some (a, rest) => (readAll? (skipCommas rest)).map (a :: ·)
termination_by cs.length
decreasing_by
  exact Nat.lt_of_le_of_lt (length_skipCommas_le _) (r.length_lt_of_read? _hread)

/-- Reads a set of items, which is not empty. -/
def readSet? (cs : List Char) : Option (List α) :=
  if cs.isEmpty then none else r.readAll? cs

theorem readSet?_of_ne_nil {cs : List Char} (h : cs ≠ []) : r.readSet? cs = r.readAll? cs := by
  rw [readSet?, if_neg (by simpa using h)]

theorem readAll?_of_readSet? {cs : List Char} {as : List α} (h : r.readSet? cs = some as) :
    r.readAll? cs = some as := by
  rw [readSet?] at h
  split at h
  · cases h
  · exact h

@[simp] theorem readAll?_nil : r.readAll? [] = some [] := by
  rw [readAll?, List.isEmpty_nil, if_pos rfl]

theorem readAll?_of_none {cs : List Char} (hne : cs ≠ []) (h : r.read? cs = none) : r.readAll? cs = none := by
  rw [readAll?, if_neg (by simpa using hne)]
  split
  · rfl
  · next hread => rw [h] at hread; cases hread

theorem readAll?_of_some {cs rest : List Char} {a : α} (h : r.read? cs = some (a, rest)) :
    r.readAll? cs = (r.readAll? (skipCommas rest)).map (a :: ·) := by
  have hne : cs ≠ [] := by
    rintro rfl
    exact absurd (r.length_lt_of_read? h) (Nat.not_lt_zero _)
  rw [readAll?, if_neg (by simpa using hne)]
  split
  · next hread => rw [h] at hread; cases hread
  · next hread => rw [h] at hread; cases hread; rfl

theorem readAll?_eq_nil_iff {cs : List Char} : r.readAll? cs = some [] ↔ cs = [] := by
  refine ⟨fun h => ?_, fun h => h ▸ r.readAll?_nil⟩
  by_contra hne
  cases hread : r.read? cs with
  | none => rw [r.readAll?_of_none hne hread] at h; cases h
  | some p => rw [r.readAll?_of_some hread] at h; simp at h

/-- The first item is read at the start, and the others after its commas. -/
theorem readAll?_eq_cons_iff {cs : List Char} {a : α} {as : List α} : r.readAll? cs = some (a :: as) ↔
    ∃ rest, r.read? cs = some (a, rest) ∧ r.readAll? (skipCommas rest) = some as := by
  constructor
  · intro h
    have hne : cs ≠ [] := by
      rintro rfl
      rw [readAll?_nil] at h
      cases h
    cases hread : r.read? cs with
    | none => rw [r.readAll?_of_none hne hread] at h; cases h
    | some p =>
      obtain ⟨b, rest⟩ := p
      rw [r.readAll?_of_some hread] at h
      obtain ⟨bs, hbs, heq⟩ := Option.map_eq_some_iff.1 h
      cases heq
      exact ⟨rest, rfl, hbs⟩
  · rintro ⟨rest, hread, hrest⟩
    rw [r.readAll?_of_some hread, hrest, Option.map_some]

/-- Whether an item was read somewhere. -/
def Reads (a : α) : Prop := ∃ cs rest, r.read? cs = some (a, rest)

/-- Whether no item starts right where another one ended. -/
def Apart : Prop := ∀ cs a rest, r.read? cs = some (a, rest) → r.read? rest = none

/-- What is read to the end spells the text. The items are separated if none can start where another
one ended. -/
theorem spell_of_readAll? {cs : List Char} {as : List α} (h : r.readAll? cs = some as) :
    ∃ items, items.map Prod.fst = as ∧ spell r.write items = cs ∧ (∀ a ∈ as, r.Reads a) ∧
      (r.Apart → Separated items) := by
  induction as generalizing cs with
  | nil => exact ⟨[], rfl, (r.readAll?_eq_nil_iff.1 h).symm, by simp, fun _ => trivial⟩
  | cons a as ih =>
    obtain ⟨rest, hread, hrest⟩ := r.readAll?_eq_cons_iff.1 h
    obtain ⟨items, hitems, hspell, hreads, hsep⟩ := ih hrest
    obtain ⟨n, hcommas⟩ := exists_commas rest
    refine ⟨(a, n) :: items, by rw [List.map_cons, hitems], ?_, ?_, fun hapart => ⟨fun hne => ?_, hsep hapart⟩⟩
    · rw [spell, hspell, ← hcommas, ← r.eq_of_read? hread]
    · exact List.forall_mem_cons.2 ⟨⟨cs, rest, hread⟩, hreads⟩
    · -- Without a comma the next item would be read right after this one.
      rw [Nat.pos_iff_ne_zero]
      rintro rfl
      obtain ⟨p, items, rfl⟩ := List.exists_cons_of_ne_nil hne
      rw [List.replicate_zero, List.nil_append] at hcommas
      rw [← hcommas, ← hitems, List.map_cons, readAll?_eq_cons_iff] at hrest
      obtain ⟨_, hnext, -⟩ := hrest
      rw [hapart cs a rest hread] at hnext
      cases hnext

/-- Where an item is read, there are no commas to pass over. -/
theorem skipCommas_of_read? {cs : List Char} {p : α × List Char} (h : r.read? cs = some p) :
    skipCommas cs = cs := by
  cases cs with
  | nil => rfl
  | cons c cs =>
    refine skipCommas_of_ne ?_ cs
    rintro rfl
    rw [r.read?_comma] at h
    cases h

/-- What is spelled is read back, if each item is, whatever follows it. -/
theorem readAll?_spell {items : List (α × Nat)}
    (h : ∀ p ∈ items, ∀ rest, r.read? (r.write p.1 ++ rest) = some (p.1, rest)) :
    r.readAll? (spell r.write items) = some (items.map Prod.fst) := by
  induction items with
  | nil => exact r.readAll?_nil
  | cons p items ih =>
    obtain ⟨a, n⟩ := p
    have hread := h (a, n) List.mem_cons_self (List.replicate n ',' ++ spell r.write items)
    have hstart : skipCommas (spell r.write items) = spell r.write items := by
      cases items with
      | nil => rfl
      | cons q items => exact r.skipCommas_of_read? (h q (by simp) _)
    rw [spell, r.readAll?_of_some hread, skipCommas_commas, hstart, ih fun p hp => h p (List.mem_cons_of_mem _ hp)]
    rfl

end ItemReader

end Expression
end Docbase
