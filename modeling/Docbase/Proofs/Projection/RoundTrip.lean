/-
Projections of the documents of projections. What a projection of a document shows stands under resolved names, and
these stay when they are resolved again (`NamingStrategy.fieldName_of_mem_fieldsOf`). The projection of a document
under such names holds it as it is, over whatever table (`items_ofDocument_of_kept`).
-/
import Docbase.Proofs.Naming.Resolution
import Docbase.Proofs.Projection.Views

namespace Docbase

namespace NamingStrategy

variable {s : NamingStrategy} {d : Document} {name : String}

/-- A document under names that stay as they are resolved has them for its fields. -/
theorem fieldsOf_of_kept (hd : (Fields.keys d).Nodup) (h : ∀ name ∈ Fields.keys d, s.fieldName name = name) :
    s.fieldsOf d = d := by
  have hsame : d.map (fun p => (s.fieldName p.1, p.2)) = d.map id :=
    List.map_congr_left fun p hp => by rw [h p.1 (List.mem_map_of_mem hp), id]
  rw [fieldsOf, hsame, List.map_id, Fields.ofPairs_of_nodup hd]

theorem mem_keys_fieldsOf : name ∈ Fields.keys (s.fieldsOf d) ↔ ∃ key ∈ Fields.keys d, s.fieldName key = name := by
  rw [fieldsOf, Fields.mem_keys_ofPairs_iff, keys_renamed, List.mem_map]

/-- A field whose name no other field gets keeps its value. -/
theorem get?_fieldsOf_of_alone {key : String} (hd : (Fields.keys d).Nodup)
    (h : ∀ other ∈ Fields.keys d, s.fieldName other = s.fieldName key → other = key) :
    Fields.get? (s.fieldsOf d) (s.fieldName key) = d.get? key := by
  have hreverse : ∀ other ∈ Fields.keys d.reverse, s.fieldName other = s.fieldName key → other = key := by
    intro other hother
    rw [Fields.keys, List.map_reverse, List.mem_reverse] at hother
    exact h other hother
  rw [fieldsOf, Fields.get?_ofPairs, ← List.map_reverse, Fields.get?_renamed hreverse, ← Fields.get?_ofPairs,
    Fields.ofPairs_of_nodup hd]

theorem fieldName_of_mem_fieldsOf (h : name ∈ Fields.keys (s.fieldsOf d)) : s.fieldName name = name := by
  obtain ⟨key, -, rfl⟩ := mem_keys_fieldsOf.1 h
  exact s.fieldName_fieldName key

end NamingStrategy

namespace Projection

open NameTables

variable {ts us : NameTables} {t u : TableId} {s : NamingStrategy} {d : Document}

/-- A projection of a document under names that stay shows the document, in the order of its table. -/
theorem items_ofDocument_of_kept (ht : ts.Has t) (hd : (Fields.keys d).Nodup)
    (h : ∀ name ∈ Fields.keys d, s.fieldName name = name) :
    ((ofDocument ts t d s).2.items (ofDocument ts t d s).1).Perm d ∧
      ∀ name, (ofDocument ts t d s).2.get? (ofDocument ts t d s).1 name = d.get? name := by
  obtain ⟨-, -, hholds⟩ := ofDocument_holds (s := s) ht d
  rw [NamingStrategy.fieldsOf_of_kept hd h] at hholds
  exact ⟨hholds.items_perm (addressable_ofDocument ht d s) hd, hholds.get?_eq⟩

/-- **A projection of the document of a projection has the same fields.** Whatever tables the two are over, and
whatever these hold already, the second has the names and the values of the first, if both resolve names
by one strategy. Resolving a name twice is resolving it once. -/
theorem ofDocument_toDocument (ht : ts.Has t) (hu : us.Has u) (d : Document) (s : NamingStrategy) :
    let made := ofDocument ts t d s
    let again := ofDocument us u (made.2.toDocument made.1) s
    (again.2.items again.1).Perm (made.2.items made.1) ∧
      (∀ name, again.2.get? again.1 name = made.2.get? made.1 name) ∧
      ∀ name, s.fieldName (s.fieldName name) = s.fieldName name := by
  intro made again
  obtain ⟨-, -, hholds⟩ := ofDocument_holds (s := s) ht d
  have haddr : made.2.Addressable made.1 := addressable_ofDocument ht d s
  have hfields := hholds.items_perm haddr (Fields.nodup_keys_ofPairs _)
  have hkept : ∀ name ∈ Fields.keys (made.2.items made.1), s.fieldName name = name := fun name hname =>
    NamingStrategy.fieldName_of_mem_fieldsOf ((hfields.map Prod.fst).mem_iff.1 hname)
  obtain ⟨hitems, hget⟩ := items_ofDocument_of_kept hu haddr.nodup_keys_items hkept
  rw [← haddr.toDocument_eq] at hitems hget
  exact ⟨haddr.toDocument_eq ▸ hitems, fun name => (hget name).trans (haddr.get?_toDocument name),
    s.fieldName_fieldName⟩

/-- A document with `_id`, with two keys for one name, and with a name that starts with a capital that has no
lower-case form: over a table that holds one of the names twice, and again over one that holds others. -/
theorem ofDocument_toDocument_of_page :
    let ts : NameTables := ⟨[["urlPath", "x", "x"]]⟩
    let us : NameTables := ⟨[["y"], ["name", "id"]]⟩
    let page : Document := [("_id", .int32 1), ("URLPath", .string "/"), ("Name", .null), ("name", .string "a"),
      ("𝐀BC", .bool true)]
    let made := ofDocument ts 0 page .camelCase
    let again := ofDocument us 1 (made.2.toDocument made.1) .camelCase
    ts.Has 0 ∧ us.Has 1 ∧ made.2.keys made.1 = ["urlPath", "id", "name", "𝐀bc"] ∧
      again.2.keys again.1 = ["name", "id", "urlPath", "𝐀bc"] ∧ (again.2.items again.1).Perm (made.2.items made.1) := by
  intro ts us page made again
  have ht : ts.Has 0 := Nat.zero_lt_one
  have hu : us.Has 1 := Nat.one_lt_two
  obtain ⟨hitems, -, -⟩ := ofDocument_toDocument ht hu page .camelCase
  exact ⟨ht, hu, by decide +kernel, by decide +kernel, hitems⟩

end Projection
end Docbase
