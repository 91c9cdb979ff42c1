/-
Whether an entity that was added is there, is read back, and is what is deleted.

The identifier is stored as it is and looked up without the white space around
it; and an array under `_id` that holds the identifier is found like the
identifier itself. `add_roundTrip_iff`: the round trip succeeds exactly where
neither makes a difference. `add_padded_identifier` is an entity that was added
and is not there.
-/
import Docbase.Proofs.Repository.Entities

namespace Docbase

namespace Repository

open Entity

variable {α : Type} [Entity α] {r : Repository α} {e e' : α} {s t : Server} {id : String}

/-! ## Identifiers -/

/-- A fresh identifier is not blank. -/
theorem trim_identifier_not_blank (n : Nat) : (Text.trim (Server.identifier n)).isEmpty = false := by
  have hne : Text.trimChars (Server.identifier n).toList ≠ [] := by
    rw [Server.identifier, String.toList_ofList, List.append_assoc]
    exact Text.trimChars_cons_ne_nil (by decide) _
  rw [Text.trim, ← Bool.not_eq_true, String.isEmpty_iff]
  intro hempty
  rw [← String.toList_eq_nil_iff, String.toList_ofList] at hempty
  exact hne hempty

/-- An entity is added with an identifier that is not blank, if identifiers keep what they are set
to. -/
theorem identified_id_of_setId (hset : ∀ (e : α) (id : String), Entity.id (setId e id) = some id) (e : α)
    (s : Server) : ∃ id, Entity.id (identified e s).1 = some id ∧ (Text.trim id).isEmpty = false := by
  unfold identified
  split
  · next h =>
    unfold hasId at h
    split at h
    · next id hid => exact ⟨id, hid, by simpa using h⟩
    · cases h
  · exact ⟨_, hset e _, trim_identifier_not_blank _⟩

theorem identified_id (hα : Lawful α) (e : α) (s : Server) :
    ∃ id, Entity.id (identified e s).1 = some id ∧ (Text.trim id).isEmpty = false :=
  identified_id_of_setId hα.id_setId e s

/-- The document of an entity that is added holds its identifier. -/
theorem identified_encode (hα : Lawful α) {d : Document} (hencode : encode (identified e s).1 = .ok d) :
    ∃ id, Entity.id (identified e s).1 = some id ∧ (Text.trim id).isEmpty = false ∧
      d.get? idField = some (.string id) ∧ d.contains idField = true := by
  obtain ⟨id, hid, hblank⟩ := identified_id hα e s
  have hd : d.get? idField = some (.string id) := hα.get?_encode hencode hid
  exact ⟨id, hid, hblank, hd, by rw [Fields.contains, hd, Option.isSome_some]⟩

/-- An identifier finds the document it is stored in iff there is no white space around it. -/
theorem finds_own_iff {d : Document} (hd : d.get? idField = some (.string id)) :
    finds id d = true ↔ Text.trim id = id := by
  rw [finds, Collection.foundBy_string_iff, hd]
  simp [eq_comm]

/-- Of the documents that do not collide with its own, an identifier finds those whose `_id` is an
array that holds it. -/
theorem finds_other_iff {d other : Document} {indexes : List IndexSpec}
    (hd : d.get? idField = some (.string id)) (htrim : Text.trim id = id)
    (hapart : Collection.collides indexes d other = false) :
    finds id other = true ↔ ∃ items, other.get? idField = some (.array items) ∧ .string id ∈ items := by
  have hne : other.get? idField ≠ some (.string id) := by
    intro hsame
    have hid := (Collection.collides_eq_false_iff.1 hapart).1
    simp only [Collection.sameId, hsame, hd, Value.equal, decide_true] at hid
    cases hid
  rw [finds, htrim, Collection.foundBy_string_iff]
  simp only [hne, false_or]

/-! ## The round trip -/

/-- Whether an entity is there, is read under its identifier, and is what deleting it removes, which
leaves the documents `others` and no entity under the identifier. -/
structure RoundTrip (r : Repository α) (e : α) (t : Server) (others : List Document) : Prop where
  contains : r.contains (idOf e) t = (.ok true, t)
  find : r.find? (idOf e) t = (.ok (some e), t)
  delete : ∃ u, r.delete e t = (.ok e, u) ∧ t.store.Rewritten u.store r.binding.collection others ∧
    r.contains (idOf e) u = (.ok false, u)

/-- Where an entity was stored last, its round trip succeeds iff its identifier finds its document
and no other, and the document is read as the entity. -/
theorem roundTrip_iff (hbound : r.binding.bound = true) (hkeeps : keepsStringId α = true)
    {others : List Document} {stored : Document} (hdocs : r.documents t = others ++ [stored]) :
    RoundTrip r e t others ↔ (Text.trim (idOf e)).isEmpty = false ∧ finds (idOf e) stored = true ∧
      (∀ other ∈ others, finds (idOf e) other = false) ∧ ofDocument stored = .ok e := by
  have herased (hnone : ∀ other ∈ others, finds (idOf e) other = false)
      (hstored : finds (idOf e) stored = true) : (others ++ [stored]).eraseP (finds (idOf e)) = others := by
    rw [List.eraseP_append_right _ (by simpa using hnone), List.eraseP_cons_of_pos hstored, List.append_nil]
  have hfirst (hnone : ∀ other ∈ others, finds (idOf e) other = false)
      (hstored : finds (idOf e) stored = true) :
      (r.documents t).find? (finds (idOf e)) = some stored := by
    have hrest : others.find? (finds (idOf e)) = none := by simpa using hnone
    rw [hdocs, List.find?_append, hrest, Option.none_or, List.find?_cons_of_pos hstored]
  constructor
  · rintro ⟨hcontains, hfind, u, hdelete, hrewritten, hgone⟩
    have hid : (Text.trim (idOf e)).isEmpty = false := by
      rw [← Bool.not_eq_true]
      exact fun hblank => contains_blank hblank true hcontains
    have hafter : r.documents u = others := hrewritten.documents
    -- Nothing is found among the documents that deleting leaves, so what is there is the last one.
    have hnone : ∀ other ∈ others, finds (idOf e) other = false := by
      rw [contains_eq hbound hid, hafter] at hgone
      simpa using hgone
    have hstored : finds (idOf e) stored = true := by
      rw [contains_eq hbound hid, hdocs, List.any_append] at hcontains
      have hany : others.any (finds (idOf e)) = false := by simpa using hnone
      simpa [hany] using hcontains
    rw [find?_eq hbound hid (hfirst hnone hstored)] at hfind
    obtain ⟨read, hread, heq⟩ := map_eq_ok_iff.1 (Prod.mk.inj hfind).1
    cases heq
    exact ⟨hid, hstored, hnone, hread⟩
  · rintro ⟨hid, hstored, hnone, hread⟩
    obtain ⟨u, hdelete, hrewritten⟩ := delete_eq (s := t) hbound hkeeps hid
    rw [hdocs, herased hnone hstored] at hrewritten
    have hafter : r.documents u = others := hrewritten.documents
    refine ⟨?_, ?_, u, hdelete, hrewritten, ?_⟩
    · rw [contains_eq hbound hid, hdocs, List.any_append]
      simp [hstored]
    · rw [find?_eq hbound hid (hfirst hnone hstored), hread, ok_map]
    · have hany : others.any (finds (idOf e)) = false := by simpa using hnone
      rw [contains_eq hbound hid, hafter, hany]

/-- **An entity that was added comes back iff its identifier finds its document and no other.** For
a type that keeps the contract of entities and reads what it stores, that is: there is no white space
around the identifier, and it is in no array under the `_id` of another document. -/
theorem add_roundTrip_iff (hadd : r.add e s = (.ok e', t)) :
    ∃ stored, s.store.Rewritten t.store r.binding.collection (r.documents s ++ [stored]) ∧
      (RoundTrip r e' t (r.documents s) ↔
        (Text.trim (idOf e')).isEmpty = false ∧ finds (idOf e') stored = true ∧
          (∀ other ∈ r.documents s, finds (idOf e') other = false) ∧ ofDocument stored = .ok e') ∧
      (Lawful α → RoundTrips α → tracker e' = .unchanged ∧
        (RoundTrip r e' t (r.documents s) ↔ Text.trim (idOf e') = idOf e' ∧
          ∀ other ∈ r.documents s, ∀ items, other.get? idField = some (.array items) →
            .string (idOf e') ∉ items)) := by
  obtain ⟨hbound, hkeeps, he', d, stored, hencode, hstored, hunique, hrewritten⟩ := add_ok hadd
  have hiff := roundTrip_iff (e := e') hbound hkeeps hrewritten.documents
  refine ⟨stored, hrewritten, hiff, fun hα htrips => ⟨he' ▸ hα.tracker_setTracker _ _, hiff.trans ?_⟩⟩
  obtain ⟨id, hid, hblank, hd, hcontains⟩ := identified_encode hα hencode
  have hidOf : idOf e' = id := by
    rw [idOf, ← he', hα.id_setTracker, hid, Option.getD_some]
  have hsame : stored = d := hstored hcontains
  subst hsame
  rw [hidOf, finds_own_iff hd]
  have hothers (htrim : Text.trim id = id) : (∀ other ∈ r.documents s, finds id other = false) ↔
      ∀ other ∈ r.documents s, ∀ items, other.get? idField = some (.array items) → .string id ∉ items := by
    refine forall₂_congr fun other hother => ?_
    rw [← Bool.not_eq_true, finds_other_iff hd htrim (hunique other hother)]
    simp only [not_exists, not_and]
  constructor
  · rintro ⟨-, htrim, hnone, -⟩
    exact ⟨htrim, (hothers htrim).1 hnone⟩
  · rintro ⟨htrim, hnone⟩
    exact ⟨hblank, htrim, (hothers htrim).2 hnone, he' ▸ htrips _ _ hencode⟩

/-- A second slot, which is given an identifier, comes back. -/
theorem add_roundTrip_of_second_slot :
    let s := (slots.add ⟨some "x", .new, "first"⟩ .empty).2
    let t := (slots.add ⟨none, .new, "second"⟩ s).2
    let e' : Slot := ⟨some (Server.identifier 1), .unchanged, "second"⟩
    slots.add ⟨none, .new, "second"⟩ s = (.ok e', t) ∧ RoundTrip slots e' t (slots.documents s) := by
  refine ⟨Prod.ext (by rfl) (by rfl), ?_⟩
  obtain ⟨stored, -, -, hiff⟩ := add_roundTrip_iff (r := slots) (e := ⟨none, .new, "second"⟩)
    (s := (slots.add ⟨some "x", .new, "first"⟩ .empty).2) (Prod.ext (by rfl) (by rfl))
  refine (hiff Slot.lawful Slot.roundTrips).2.2 ⟨by decide, ?_⟩
  have hdocs : slots.documents (slots.add ⟨some "x", .new, "first"⟩ .empty).2 =
      [[("_id", .string "x"), ("value", .string "first")]] := by rfl
  rw [hdocs, List.forall_mem_singleton]
  rintro items ⟨⟩

/-- A slot with white space around its identifier is added, and is not there: it is neither found
nor deleted. -/
theorem add_padded_identifier :
    let e' : Slot := ⟨some " x ", .unchanged, "a"⟩
    let t := (slots.add ⟨some " x ", .new, "a"⟩ .empty).2
    Server.empty.Reachable ∧ keepsStringId Slot = true ∧ RoundTrips Slot ∧
      (slots.add ⟨some " x ", .new, "a"⟩ .empty).1 = .ok e' ∧ (slots.contains " x " t).1 = .ok false ∧
      (slots.find? " x " t).1 = .ok none ∧ (slots.delete e' t).1 = .ok e' ∧
      slots.documents (slots.delete e' t).2 = [[("_id", .string " x "), ("value", .string "a")]] ∧
      ¬RoundTrip slots e' t [] := by
  refine ⟨.init rfl, by decide, Slot.roundTrips, by rfl, by rfl, by rfl, by rfl, by rfl, fun h => ?_⟩
  have hfalse : (slots.contains " x " (slots.add ⟨some " x ", .new, "a"⟩ .empty).2).1 = .ok false := by rfl
  have htrue : (slots.contains " x " (slots.add ⟨some " x ", .new, "a"⟩ .empty).2).1 = .ok true :=
    congrArg Prod.fst h.contains
  cases hfalse.symm.trans htrue

end Repository
end Docbase
