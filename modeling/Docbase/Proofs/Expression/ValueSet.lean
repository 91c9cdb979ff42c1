/-
What the operands of membership tests hold: nulls and strings whose characters
stand in the list (`stringValues`), or doubles (`numberValues?`), and so what a
list is read as (`item_of_valueSet?`).
-/
import Docbase.Expression.ValueSet

namespace Docbase

namespace Text

/-- Cutting a text adds no characters. -/
theorem mem_of_mem_splitAll {sep c : Char} {cs part : List Char} (hpart : part ∈ splitAll sep cs)
    (hc : c ∈ part) : c ∈ cs := by
  induction cs generalizing part with
  | nil =>
    rw [splitAll, List.mem_singleton] at hpart
    rwa [hpart] at hc
  | cons x cs ih =>
    rw [splitAll] at hpart
    split at hpart
    · rcases List.mem_cons.1 hpart with rfl | hpart
      · cases hc
      · exact List.mem_cons_of_mem _ (ih hpart hc)
    · split at hpart
      · next first more hrest =>
        rcases List.mem_cons.1 hpart with rfl | hpart
        · rcases List.mem_cons.1 hc with rfl | hc
          · exact List.mem_cons_self
          · exact List.mem_cons_of_mem _ (ih (hrest ▸ List.mem_cons_self) hc)
        · exact List.mem_cons_of_mem _ (ih (hrest ▸ List.mem_cons_of_mem _ hpart) hc)
      · rw [List.mem_singleton] at hpart
        rw [hpart, List.mem_singleton] at hc
        rw [hc]
        exact List.mem_cons_self

end Text

namespace Expression

theorem nullable_cases (cs : List Char) : nullable cs = .null ∨ nullable cs = .string (String.ofList cs) := by
  unfold nullable
  split
  · exact .inl rfl
  · exact .inr rfl

theorem mem_of_mem_pieces {c : Char} {cs piece : List Char} (hpiece : piece ∈ pieces cs) (hc : c ∈ piece) :
    c ∈ cs := Text.mem_of_mem_splitAll (List.mem_filter.1 hpiece).1 hc

/-- A list is what stands between the first character and the last, if they are its parentheses. -/
theorem unwrap?_eq_some_iff {value inner : List Char} :
    unwrap? value = some inner ↔ value = '(' :: inner ++ [')'] := by
  constructor
  · intro h
    unfold unwrap? at h
    split at h
    · next rest =>
      split at h
      · next hlast =>
        cases h
        obtain ⟨list, rfl⟩ := List.getLast?_eq_some_iff.1 hlast
        rw [List.dropLast_concat, List.cons_append]
      · cases h
    · cases h
  · rintro rfl
    simp [unwrap?]

theorem mem_of_unwrap? {c : Char} {cs inner : List Char} (h : unwrap? cs = some inner) (hc : c ∈ inner) :
    c ∈ cs := by
  rw [unwrap?_eq_some_iff.1 h, List.cons_append]
  exact List.mem_cons_of_mem _ (List.mem_append_left _ hc)

/-- An item of a list: null, a number, or a string over the characters of the list. -/
inductive IsItem (cs : List Char) : Value → Prop where
  | null : IsItem cs .null
  | double (x : Double) : IsItem cs (.double x)
  | string {s : String} (h : ∀ c ∈ s.toList, c ∈ cs) : IsItem cs (.string s)

theorem item_of_stringValues {cs : List Char} {v : Value} (h : v ∈ stringValues cs) : IsItem cs v := by
  obtain ⟨piece, hpiece, rfl⟩ := List.mem_map.1 h
  rcases nullable_cases piece with hnull | hstring
  · rw [hnull]
    exact .null
  · rw [hstring]
    refine .string fun c hc => ?_
    rw [String.toList_ofList] at hc
    exact (List.mem_filter.1 (mem_of_mem_pieces hpiece hc)).1

theorem item_of_numberValues? {cs : List Char} {vs : List Value} (h : numberValues? cs = some vs) {v : Value}
    (hv : v ∈ vs) : IsItem cs v := by
  unfold numberValues? at h
  generalize pieces cs = ps at h
  induction ps generalizing vs with
  | nil =>
    cases h
    cases hv
  | cons p ps ih =>
    rw [List.mapM_cons] at h
    obtain ⟨w, hw, h⟩ := Option.bind_eq_some_iff.1 h
    obtain ⟨ws, hws, h⟩ := Option.bind_eq_some_iff.1 h
    cases h
    rcases List.mem_cons.1 hv with rfl | hv
    · obtain ⟨n, -, rfl⟩ := Option.map_eq_some_iff.1 hw
      exact .double _
    · exact ih hv hws

theorem item_of_valueSet? {cs : List Char} {vs : List Value} (h : valueSet? cs = some vs) {v : Value}
    (hv : v ∈ vs) : IsItem cs v := by
  unfold valueSet? at h
  split at h
  · cases h
  · next inner hinner =>
    have hitem : IsItem inner v := by
      split at h
      · cases h
        exact item_of_stringValues hv
      · split at h
        · exact item_of_numberValues? h hv
        · cases h
    cases hitem with
    | null => exact .null
    | double x => exact .double x
    | string hs => exact .string fun c hc => mem_of_unwrap? hinner (hs c hc)

end Expression
end Docbase
