/-
What repositories rely on in an entity type. `StoresId`: identifier and tracker
are fields that keep what they are set to, and the identifier is stored as it is
under `_id`. Beyond that, the tracker is not stored (`Lawful`), and the identifier
is read as it is from any document (`CarriesId`). `RoundTrips`: a stored form gives
back the entity it was written from.

Slots are such a type.
-/
import Docbase.Entity.Slot
import Docbase.Proofs.Outcome

namespace Docbase

namespace Entity

/-- What the identifier and the tracker of an entity rest on, in storing. -/
structure StoresId (α : Type) [Entity α] : Prop where
  id_setId (e : α) (id : String) : Entity.id (setId e id) = some id
  id_setTracker (e : α) (t : Tracker) : Entity.id (setTracker e t) = Entity.id e
  tracker_setTracker (e : α) (t : Tracker) : tracker (setTracker e t) = t
  get?_encode {e : α} {d : Document} {id : String} (hd : encode e = .ok d) (hid : Entity.id e = some id) :
    d.get? idField = some (.string id)

/-- The contract of an entity type. -/
structure Lawful (α : Type) [Entity α] : Prop extends StoresId α where
  encode_setTracker (e : α) (t : Tracker) : encode (setTracker e t) = encode e

/-- What the identifier of an entity rests on, in storing and in reading. -/
structure CarriesId (α : Type) [Entity α] : Prop extends StoresId α where
  id_decode {d : Document} {e : α} {id : String} (he : decode d = .ok e)
    (hid : d.get? idField = some (.string id)) : Entity.id e = some id

/-- Whether reading undoes storing, up to the tracker. -/
def RoundTrips (α : Type) [Entity α] : Prop :=
  ∀ (e : α) (d : Document), encode e = .ok d → ofDocument d = .ok (setTracker e .unchanged)

theorem optional_ofString? {d : Document} {key : String} {s : Option String}
    (h : d.get? key = some (ofString? s)) : optional d key asString = .ok s := by
  cases s <;> simp only [optional, h, ofString?, asString, ok_map]

theorem optional_string {d : Document} {key id : String} (h : d.get? key = some (.string id)) :
    optional d key asString = .ok (some id) := optional_ofString? h

theorem required_of_get? {α : Type} {d : Document} {key : String} {v : Value} (h : d.get? key = some v)
    (read : Value → Result α) : required d key read = read v := by
  simp only [required, h]

end Entity

open Entity

namespace Slot

theorem lawful : Lawful Slot where
  id_setId _ _ := rfl
  id_setTracker _ _ := rfl
  tracker_setTracker _ _ := rfl
  encode_setTracker _ _ := rfl
  get?_encode {s d id} hd hid := by
    cases hd
    have hid : s.id = some id := hid
    rw [encode, hid]
    rfl

theorem carriesId : CarriesId Slot := by
  refine ⟨lawful.toStoresId, fun {d e id} he hid => ?_⟩
  have he : decode d = .ok e := he
  simp only [decode, optional_string hid, ok_bind, bind_eq_ok_iff] at he
  obtain ⟨value, -, heq⟩ := he
  cases heq
  rfl

theorem roundTrips : RoundTrips Slot := by
  intro s d hd
  cases hd
  have hid : optional s.encode idField asString = .ok s.id := optional_ofString? rfl
  have hvalue : required s.encode "value" asString = asString (.string s.value) := required_of_get? rfl _
  show (decode s.encode).map _ = _
  rw [decode, hid, hvalue]
  rfl

end Slot
end Docbase
