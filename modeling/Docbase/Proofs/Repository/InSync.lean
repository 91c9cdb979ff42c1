/-
Whether an entity that a repository returns as unchanged is in step with the
store: its document is stored under its identifier.

After adding it is (`add_inSync`). After updating it is where a document is
stored under the identifier and there is no white space around that, so that
looking it up finds this document (`update_inSync_iff`). Otherwise the update is
answered like one that was carried out, and nothing is written;
`update_padded_identifier` is such an update.
-/
import Docbase.Proofs.Repository.RoundTrip

namespace Docbase

namespace Repository

open Entity

variable {α : Type} [Entity α] {r : Repository α} {e e' : α} {s t : Server}

/-- Whether the stored form of an entity stands in a repository, under its identifier. -/
def InSync (r : Repository α) (e : α) (s : Server) : Prop :=
  ∃ d id, d ∈ r.documents s ∧ encode e = .ok d ∧ Entity.id e = some id ∧ d.get? idField = some (.string id)

/-- Whether updating an entity finds what it is to replace: a document is stored under its
identifier, and either there is no white space around that or nothing is to be written. -/
def Updatable (r : Repository α) (e : α) (s : Server) : Prop :=
  ∃ stored ∈ r.documents s, stored.get? idField = some (.string (idOf e)) ∧
    (Text.trim (idOf e) = idOf e ∨ encode e = .ok stored)

/-- An entity, whatever its tracker, is in step with the store iff its document is stored. -/
theorem inSync_iff_mem (hα : Lawful α) {d : Document} {id : String} (hencode : encode e = .ok d)
    (hid : Entity.id e = some id) (tracked : Tracker) :
    InSync r (setTracker e tracked) s ↔ d ∈ r.documents s := by
  rw [InSync, hα.encode_setTracker, hα.id_setTracker, hencode, hid]
  constructor
  · rintro ⟨d', id', hmem, heq, -, -⟩
    cases heq
    exact hmem
  · intro hmem
    exact ⟨d, id, hmem, rfl, rfl, hα.get?_encode hencode hid⟩

theorem add_inSync (hα : Lawful α) (hadd : r.add e s = (.ok e', t)) :
    tracker e' = .unchanged ∧ InSync r e' t := by
  obtain ⟨-, -, rfl, d, stored, hencode, hstored, -, hrewritten⟩ := add_ok hadd
  obtain ⟨id, hid, -, -, hcontains⟩ := identified_encode hα hencode
  have hdocs : r.documents t = r.documents s ++ [d] := hstored hcontains ▸ hrewritten.documents
  refine ⟨hα.tracker_setTracker _ _, (inSync_iff_mem hα hencode hid _).2 ?_⟩
  simp [hdocs]

/-- An update is in step with the store iff it found what it was to replace. If not, nothing was
written. -/
theorem update_inSync_iff (hα : Lawful α) (hupdate : r.update e s = (.ok e', t)) :
    tracker e' = .unchanged ∧ (InSync r e' t ↔ Updatable r e s) ∧ (¬InSync r e' t → t = s) := by
  obtain ⟨hblank, rfl, d, hencode, hcases⟩ := update_ok hupdate
  have hid : Entity.id e = some (idOf e) := id_of_not_blank hblank
  have hd : d.get? idField = some (.string (idOf e)) := hα.get?_encode hencode hid
  rw [inSync_iff_mem hα hencode hid]
  refine ⟨hα.tracker_setTracker _ _, ?_⟩
  rcases hcases with ⟨hnone, rfl⟩ | ⟨before, stored, after, d', hdocs, hfound, hreplacement, hrewritten⟩
  · -- Nothing was found, so whatever is stored under the identifier has white space around it.
    refine ⟨⟨fun hmem => ⟨d, hmem, hd, .inr hencode⟩, ?_⟩, fun _ => rfl⟩
    rintro ⟨stored, hmem, hstored, htrim | hsame⟩
    · have hmissed := hnone stored hmem
      rw [(finds_own_iff hstored).2 htrim] at hmissed
      cases hmissed
    · rw [hencode] at hsame
      cases hsame
      exact hmem
  · obtain ⟨hstored, htrim, rfl⟩ := Collection.replacement_string hd hfound hreplacement
    have hafter : r.documents t = before ++ d' :: after := hrewritten.documents
    have hmem : d' ∈ r.documents t := by simp [hafter]
    have hupdatable : Updatable r e s := ⟨stored, by simp [hdocs], hstored, .inl htrim⟩
    exact ⟨iff_of_true hmem hupdatable, fun hnot => absurd hmem hnot⟩

/-- **Unchanged means in step with the store, but for updates that find nothing to replace.** For a
type that keeps the contract of entities, an entity that was added is in step with the store. One
that was updated is iff there was something to replace; if not, nothing was written. -/
theorem unchanged_inSync_iff (hα : Lawful α) :
    (r.add e s = (.ok e', t) → tracker e' = .unchanged ∧ InSync r e' t) ∧
    (r.update e s = (.ok e', t) → tracker e' = .unchanged ∧ (InSync r e' t ↔ Updatable r e s) ∧
      (¬InSync r e' t → t = s)) :=
  ⟨add_inSync hα, update_inSync_iff hα⟩

/-- A slot is in step with the store when it was added and when it was updated. -/
theorem unchanged_inSync_of_slot :
    let s := (slots.add ⟨some "x", .new, "a"⟩ .empty).2
    let t := (slots.update ⟨some "x", .modified, "b"⟩ s).2
    InSync slots (⟨some "x", .unchanged, "a"⟩ : Slot) s ∧
      InSync slots (⟨some "x", .unchanged, "b"⟩ : Slot) t := by
  have hadd : slots.add ⟨some "x", .new, "a"⟩ .empty =
      (.ok ⟨some "x", .unchanged, "a"⟩, (slots.add ⟨some "x", .new, "a"⟩ .empty).2) :=
    Prod.ext (by rfl) (by rfl)
  have hupdate : slots.update ⟨some "x", .modified, "b"⟩ (slots.add ⟨some "x", .new, "a"⟩ .empty).2 =
      (.ok ⟨some "x", .unchanged, "b"⟩,
        (slots.update ⟨some "x", .modified, "b"⟩ (slots.add ⟨some "x", .new, "a"⟩ .empty).2).2) :=
    Prod.ext (by rfl) (by rfl)
  have hupdatable : Updatable slots (⟨some "x", .modified, "b"⟩ : Slot)
      (slots.add ⟨some "x", .new, "a"⟩ .empty).2 := by
    have hdocs : slots.documents (slots.add ⟨some "x", .new, "a"⟩ .empty).2 =
        [[("_id", .string "x"), ("value", .string "a")]] := by rfl
    rw [Updatable, hdocs]
    exact ⟨_, List.mem_singleton_self _, by rfl, .inl (by decide)⟩
  exact ⟨((unchanged_inSync_iff Slot.lawful).1 hadd).2,
    ((unchanged_inSync_iff Slot.lawful).2 hupdate).2.1.2 hupdatable⟩

/-- A slot with white space around its identifier is updated, and the store keeps its old value. -/
theorem update_padded_identifier :
    let e' : Slot := ⟨some " x ", .unchanged, "b"⟩
    let s := (slots.add ⟨some " x ", .new, "a"⟩ .empty).2
    let t := (slots.update ⟨some " x ", .modified, "b"⟩ s).2
    Server.empty.Reachable ∧ keepsStringId Slot = true ∧
      (slots.update ⟨some " x ", .modified, "b"⟩ s).1 = .ok e' ∧
      slots.documents t = [[("_id", .string " x "), ("value", .string "a")]] ∧ ¬InSync slots e' t := by
  refine ⟨.init rfl, by decide, by rfl, by rfl, ?_⟩
  rintro ⟨d, id, hmem, hencode, -, -⟩
  have hdocs : slots.documents
      (slots.update ⟨some " x ", .modified, "b"⟩ (slots.add ⟨some " x ", .new, "a"⟩ .empty).2).2 =
        [[("_id", .string " x "), ("value", .string "a")]] := by
    rfl
  rw [hdocs, List.mem_singleton] at hmem
  subst hmem
  simp [Entity.encode, Slot.encode] at hencode

end Repository
end Docbase
