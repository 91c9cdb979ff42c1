/-
Text search. A document is found if a text of an indexed field has a word in common with the search text
(`Matching.searches_iff`), so the answer for a search text of two parts is made of the answers for the parts,
and that for two lists of fields of the answers for the lists (`Predicate.text_distributes`).
-/
import Docbase.Proofs.Matching.Faults
import Docbase.Proofs.Text.Words

namespace Docbase

variable {fields more : List String} {d : Document} {f s t : String} {c : Char}

/-- Whether a field has a text: it is that text, or an array with the text among its items. -/
def Document.HasText (d : Document) (f t : String) : Prop :=
  d.lookup? f = some (.string t) ∨ ∃ items, d.lookup? f = some (.array items) ∧ Value.string t ∈ items

namespace Matching

theorem mem_textsOf_iff : t ∈ textsOf (d.lookup? f) ↔ d.HasText f t := by
  unfold Document.HasText
  cases d.lookup? f with
  | none => simp [textsOf]
  | some v =>
    cases v with
    | string u => simp [textsOf, eq_comm]
    | array items =>
      simp only [textsOf, List.mem_filterMap, Option.some.injEq, Value.array.injEq, reduceCtorEq, false_or,
        exists_eq_left']
      constructor
      · intro ⟨item, hitem, htext⟩
        cases item <;> cases htext
        exact hitem
      · exact fun hitem => ⟨_, hitem, rfl⟩
    | _ => simp [textsOf]

theorem searches_iff : searches fields d s = true ↔ ∃ f ∈ fields, ∃ t, d.HasText f t ∧ Text.ShareWord s t := by
  simp [searches, Text.shareWord_iff, mem_textsOf_iff]

/-- A search text of two parts finds what one of them does. -/
theorem searches_words_append (hc : Text.isAlphanumeric c = false) :
    searches fields d (s ++ String.singleton c ++ t) = (searches fields d s || searches fields d t) := by
  rw [Bool.eq_iff_iff, Bool.or_eq_true]
  simp only [searches, Text.words_append hc, List.any_eq_true, List.contains_iff_mem, List.mem_append, and_or_left,
    exists_or]

theorem searches_fields_append :
    searches (fields ++ more) d s = (searches fields d s || searches more d s) := by
  simp [searches]

end Matching

namespace Predicate

open Matching

/-- **Text search distributes over words and fields.** Where there are fields for texts, a search has an answer. A
search text of two parts with a character between them that belongs to no word finds a document iff one of
the parts does, and over two lists of fields it finds a document iff it does over one of them. A document is found
iff a field has a text that shares a word with the search text, where an array counts as the texts among its
items, and values of any other kind count for nothing. -/
theorem text_distributes (hfields : fields ≠ []) (hmore : more ≠ []) (d : Document) :
    (∀ s t c, Text.isAlphanumeric c = false →
      ∃ a b, (text s).eval fields d = .ok a ∧ (text t).eval fields d = .ok b ∧
        (text (s ++ String.singleton c ++ t)).eval fields d = .ok (a || b)) ∧
    (∀ s, ∃ a b, (text s).eval fields d = .ok a ∧ (text s).eval more d = .ok b ∧
      (text s).eval (fields ++ more) d = .ok (a || b)) ∧
    ∀ s, (text s).eval fields d = .ok true ↔ ∃ f ∈ fields, ∃ t, d.HasText f t ∧ Text.ShareWord s t := by
  refine ⟨fun s t c hc => ⟨_, _, eval_text hfields d s, eval_text hfields d t, ?_⟩,
    fun s => ⟨_, _, eval_text hfields d s, eval_text hmore d s, ?_⟩, fun s => ?_⟩
  · rw [eval_text hfields, searches_words_append hc]
  · rw [eval_text (List.append_ne_nil_of_left_ne_nil hfields _), searches_fields_append]
  · rw [eval_text hfields, Except.ok.injEq, searches_iff]

/-- A name and an array of tags and a number are searched. The search text has a word for each of them, behind
separators, and one that is nowhere. -/
theorem text_distributes_of_two_fields :
    let d : Document := [("_id", .int32 1), ("name", .string "Ana María, 3ª"),
      ("tags", .array [.string "red-hot", .int32 7])]
    ["name"] ≠ [] ∧ ["tags", "size"] ≠ [] ∧ Text.isAlphanumeric '-' = false ∧
      (text "--MARÍA").eval ["name"] d = .ok true ∧ (text "7").eval ["name"] d = .ok false ∧
      (text ("--MARÍA" ++ String.singleton '-' ++ "7")).eval ["name"] d = .ok true ∧
      (text "7, Hot").eval ["name"] d = .ok false ∧ (text "7, Hot").eval ["tags", "size"] d = .ok true ∧
      (text "7, Hot").eval (["name"] ++ ["tags", "size"]) d = .ok true ∧
      ∃ f ∈ ["tags", "size"], ∃ t, d.HasText f t ∧ Text.ShareWord "7, Hot" t := by
  intro d
  have hname : ["name"] ≠ [] := List.cons_ne_nil _ _
  have hmore : ["tags", "size"] ≠ [] := List.cons_ne_nil _ _
  have hc : Text.isAlphanumeric '-' = false := by decide
  obtain ⟨hwords, hlists, -⟩ := text_distributes hname hmore d
  obtain ⟨-, -, hfound⟩ := text_distributes hmore hname d
  have hmaria : (text "--MARÍA").eval ["name"] d = .ok true := by rfl
  have hseven : (text "7").eval ["name"] d = .ok false := by rfl
  have hhot : (text "7, Hot").eval ["name"] d = .ok false := by rfl
  have htags : (text "7, Hot").eval ["tags", "size"] d = .ok true := by rfl
  obtain ⟨a, b, ha, hb, hjoined⟩ := hwords "--MARÍA" "7" '-' hc
  obtain ⟨a', b', ha', hb', hboth⟩ := hlists "7, Hot"
  cases hmaria.symm.trans ha
  cases hseven.symm.trans hb
  cases hhot.symm.trans ha'
  cases htags.symm.trans hb'
  exact ⟨hname, hmore, hc, hmaria, hseven, hjoined, hhot, htags, hboth, (hfound "7, Hot").1 htags⟩

end Predicate
end Docbase
