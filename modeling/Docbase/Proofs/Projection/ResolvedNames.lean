/-
What is kept of the fields of a document under resolved names. Two keys of a document can
resolve to one name, `_id` and `Id` under every strategy; the projection of the document
then has one field for both. There are as many fields as different names
(`length_ofDocument`), each with the value of the last key that resolves to it
(`get?_ofDocument_of_last`), so nothing is lost iff the strategy separates the keys
(`NamingStrategy.Separates`). If the strategy keeps the keys themselves, it separates them
unless `_id` stands beside the name that it is shown as (`separates_iff_of_kept`).
-/
import Docbase.Proofs.Naming.Resolution
import Docbase.Proofs.Projection.Observation

namespace Docbase

namespace NamingStrategy

variable {s : NamingStrategy} {d : Document}

/-- Whether no two fields of a document get one name. -/
def Separates (s : NamingStrategy) (d : Document) : Prop := ((Fields.keys d).map s.fieldName).Nodup

/-- Keys that a strategy keeps are separated unless `_id` stands beside the name that it is shown as. -/
theorem separates_iff_of_kept (hd : (Fields.keys d).Nodup) (hkept : ∀ key ∈ Fields.keys d, s.resolve key = key) :
    s.Separates d ↔ ¬(idField ∈ Fields.keys d ∧ s.fieldName idField ∈ Fields.keys d) := by
  rw [Separates, List.nodup_map_iff_inj_on hd]
  constructor
  · rintro hinj ⟨hid, hshown⟩
    have hsame := fieldName_eq_self (hkept _ hshown) (s.fieldName_ne_idField _)
    exact s.fieldName_ne_idField _ (hinj _ hshown _ hid hsame)
  · intro hnot a ha b hb heq
    -- Only `_id` is renamed, so of two keys that get one name it is one, and the other is that name.
    by_cases hia : a = idField
    · by_cases hib : b = idField
      · rw [hia, hib]
      · rw [fieldName_eq_self (hkept b hb) hib, hia] at heq
        exact absurd ⟨hia ▸ ha, heq ▸ hb⟩ hnot
    · by_cases hib : b = idField
      · rw [fieldName_eq_self (hkept a ha) hia, hib] at heq
        exact absurd ⟨hib ▸ hb, heq ▸ ha⟩ hnot
      · rwa [fieldName_eq_self (hkept a ha) hia, fieldName_eq_self (hkept b hb) hib] at heq

end NamingStrategy

namespace Projection

open NameTables

variable {ts : NameTables} {t : TableId} {s : NamingStrategy} {d : Document}

theorem length_ofDocument (ht : ts.Has t) (d : Document) (s : NamingStrategy) :
    (ofDocument ts t d s).2.length = ((Fields.keys d).map s.fieldName).dedup.length := by
  obtain ⟨-, -, hholds⟩ := ofDocument_holds (s := s) ht d
  have hperm := hholds.items_perm (addressable_ofDocument ht d s) (Fields.nodup_keys_ofPairs _)
  rw [← length_items hholds.fits, hperm.length_eq, NamingStrategy.fieldsOf, Fields.length_ofPairs,
    NamingStrategy.keys_renamed]

/-- Of the keys that resolve to one name, the last gives it its value. -/
theorem get?_ofDocument_of_last (ht : ts.Has t) {before after : Document} {key : String} {v : Value}
    (h : ∀ p ∈ after, s.fieldName p.1 ≠ s.fieldName key) :
    (ofDocument ts t (before ++ (key, v) :: after) s).2.get? (ofDocument ts t (before ++ (key, v) :: after) s).1
      (s.fieldName key) = some v := by
  obtain ⟨-, -, hholds⟩ := ofDocument_holds (s := s) ht (before ++ (key, v) :: after)
  rw [hholds.get?_eq, NamingStrategy.fieldsOf, List.map_append, List.map_cons]
  refine Fields.get?_ofPairs_of_last _ v fun p hp => ?_
  obtain ⟨q, hq, rfl⟩ := List.mem_map.1 hp
  exact h q hq

/-- A projection has a field for each key iff the strategy separates the keys, and then with its value. -/
theorem length_ofDocument_eq_iff (ht : ts.Has t) : (ofDocument ts t d s).2.length = d.length ↔ s.Separates d := by
  have hlength : ((Fields.keys d).map s.fieldName).length = d.length := by
    rw [List.length_map, Fields.keys, List.length_map]
  rw [length_ofDocument ht, NamingStrategy.Separates, ← List.dedup_eq_self, ← hlength]
  exact (List.dedup_sublist _).length_eq

theorem get?_ofDocument (ht : ts.Has t) (hs : s.Separates d) {key : String} {v : Value}
    (hv : d.get? key = some v) :
    (ofDocument ts t d s).2.get? (ofDocument ts t d s).1 (s.fieldName key) = some v := by
  obtain ⟨before, after, rfl⟩ := List.append_of_mem (Fields.mem_of_get? hv)
  refine get?_ofDocument_of_last ht fun p hp heq => ?_
  rw [NamingStrategy.Separates, Fields.keys, List.map_append, List.map_append, List.map_cons,
    List.map_cons] at hs
  have hnot := (List.nodup_cons.1 (List.nodup_append.1 hs).2.1).1
  rw [← heq] at hnot
  exact hnot (List.mem_map_of_mem (List.mem_map_of_mem hp))

/-- **A projection of a document has a field for each name that the keys resolve to**, with the value of the
last key that does. No field is lost iff no two keys resolve to one name; where the strategy keeps the
keys as they are, that is unless the document has both `_id` and the name that `_id` is shown as. -/
theorem ofDocument_fields (ht : ts.Has t) (d : Document) (s : NamingStrategy) :
    let (ts', p) := ofDocument ts t d s
    p.length = ((Fields.keys d).map s.fieldName).dedup.length ∧
    (∀ before key v after, d = before ++ (key, v) :: after →
      (∀ q ∈ after, s.fieldName q.1 ≠ s.fieldName key) → p.get? ts' (s.fieldName key) = some v) ∧
    ((p.length = d.length ∧ ∀ key v, d.get? key = some v → p.get? ts' (s.fieldName key) = some v) ↔
      s.Separates d) ∧
    ((Fields.keys d).Nodup → (∀ key ∈ Fields.keys d, s.resolve key = key) →
      (s.Separates d ↔ ¬(idField ∈ Fields.keys d ∧ s.fieldName idField ∈ Fields.keys d))) := by
  refine ⟨length_ofDocument ht d s, ?_, ⟨fun h => (length_ofDocument_eq_iff ht).1 h.1, fun hs => ?_⟩,
    NamingStrategy.separates_iff_of_kept⟩
  · rintro before key v after rfl h
    exact get?_ofDocument_of_last ht h
  · exact ⟨(length_ofDocument_eq_iff ht).2 hs, fun key v => get?_ofDocument ht hs⟩

/-- A document with `_id`, whose fields the strategy that lowers names keeps apart, and one with two keys for
one name, over a table that has the name already. -/
theorem ofDocument_fields_of_ticket :
    let ts : NameTables := ⟨[["name"]]⟩
    let ticket : Document := [("_id", .int32 1), ("URLPath", .string "/"), ("name", .string "x")]
    let twice : Document := [("Name", .string "x"), ("name", .string "y")]
    ts.Has 0 ∧ (ofDocument ts 0 ticket .camelCase).2.length = 3 ∧
      (ofDocument ts 0 ticket .camelCase).2.get? (ofDocument ts 0 ticket .camelCase).1 "urlPath" = some (.string "/") ∧
      (ofDocument ts 0 twice .camelCase).2.length = 1 ∧
      (ofDocument ts 0 twice .camelCase).2.get? (ofDocument ts 0 twice .camelCase).1 "name" = some (.string "y") := by
  intro ts ticket twice
  have ht : ts.Has 0 := Nat.zero_lt_one
  obtain ⟨-, -, hticket, -⟩ := ofDocument_fields ht ticket .camelCase
  obtain ⟨hlength, hlast, -, -⟩ := ofDocument_fields ht twice .camelCase
  have hseparates : NamingStrategy.camelCase.Separates ticket := by
    rw [NamingStrategy.Separates]
    decide
  obtain ⟨hall, hget⟩ := hticket.2 hseparates
  have hpath : NamingStrategy.camelCase.fieldName "URLPath" = "urlPath" := by decide
  have hname : NamingStrategy.camelCase.fieldName "name" = "name" := by decide
  have hurl := hget "URLPath" (.string "/") rfl
  have hy := hlast [("Name", .string "x")] "name" (.string "y") [] rfl (by simp)
  rw [hpath] at hurl
  rw [hname] at hy
  exact ⟨ht, hall, hurl, hlength.trans (by decide), hy⟩

/-- Of `_id` and `Id`, which are different keys, one field is left, and the value of `_id` is gone. -/
theorem ofDocument_loses_id :
    let ts : NameTables := ⟨[[]]⟩
    let d : Document := [("_id", .int32 1), ("Id", .int32 2)]
    let r := ofDocument ts 0 d .verbatim
    ts.Has 0 ∧ (Fields.keys d).Nodup ∧ d.length = 2 ∧ r.2.length = 1 ∧ d.get? "_id" = some (.int32 1) ∧
      r.2.get? r.1 (NamingStrategy.verbatim.fieldName "_id") = some (.int32 2) := by
  intro ts d r
  exact ⟨Nat.zero_lt_one, by decide, rfl, by rfl, rfl, by rfl⟩

end Projection
end Docbase
