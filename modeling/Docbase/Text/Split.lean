/-
Cutting a text at a character. A text is cut at the last occurrence of the
character, so that the second part is free of it (`splitLast?_eq_some_iff`); it
is not cut exactly if it does not hold the character (`splitLast?_eq_none_iff`).
-/

namespace Docbase.Text

/-- The parts before and after the last occurrence of `c`. -/
def splitLast? (c : Char) : List Char → Option (List Char × List Char)
  | [] => none
  | x :: rest =>
    match splitLast? c rest with
    | some (before, after) => some (x :: before, after)
    | none => if x = c then some ([], rest) else none

theorem splitLast?_eq_none_iff {c : Char} {cs : List Char} : splitLast? c cs = none ↔ c ∉ cs := by
  induction cs with
  | nil => simp [splitLast?]
  | cons x rest ih =>
    cases hr : splitLast? c rest with
    | some p =>
      have hmem : c ∈ rest := by
        rw [hr] at ih
        simpa using ih
      simp [splitLast?, hr, hmem]
    | none =>
      have hfree : c ∉ rest := ih.1 hr
      by_cases hx : x = c
      · simp [splitLast?, hr, hx]
      · simp [splitLast?, hr, hx, hfree, Ne.symm hx]

theorem splitLast?_append {c : Char} (before : List Char) {after : List Char} (h : c ∉ after) :
    splitLast? c (before ++ c :: after) = some (before, after) := by
  induction before with
  | nil => simp [splitLast?, splitLast?_eq_none_iff.2 h]
  | cons x rest ih => simp [splitLast?, ih]

theorem splitLast?_eq_some_iff {c : Char} {cs before after : List Char} :
    splitLast? c cs = some (before, after) ↔ cs = before ++ c :: after ∧ c ∉ after := by
  constructor
  · intro h
    induction cs generalizing before with
    | nil => simp [splitLast?] at h
    | cons x rest ih =>
      cases hr : splitLast? c rest with
      | some p =>
        obtain ⟨b, a⟩ := p
        simp only [splitLast?, hr, Option.some.injEq, Prod.mk.injEq] at h
        obtain ⟨rfl, rfl⟩ := h
        obtain ⟨hspell, hfree⟩ := ih hr
        exact ⟨by simp [← hspell], hfree⟩
      | none =>
        by_cases hx : x = c
        · simp only [splitLast?, hr, hx, if_true, Option.some.injEq, Prod.mk.injEq] at h
          obtain ⟨rfl, rfl⟩ := h
          exact ⟨by simp [hx], splitLast?_eq_none_iff.1 hr⟩
        · simp [splitLast?, hr, hx] at h
  · rintro ⟨rfl, hfree⟩
    exact splitLast?_append before hfree

/-- The parts between the occurrences of `c`, empty ones included. -/
def splitAll (c : Char) : List Char → List (List Char)
  | [] => [[]]
  | x :: rest =>
    if x = c then [] :: splitAll c rest
    else
      match splitAll c rest with
      | part :: more => (x :: part) :: more
      | [] => [[x]]

end Docbase.Text
