/-
Tables of names that keep an index. Names are not searched for but looked up in a map
from names to positions, which is filled when the table is made and added to with each
new name. The map finds each name where a search finds it first (`IndexedNames.Exact`),
so such a table answers as a table without an index does: `answers_placeAll`.
-/
import Docbase.Proofs.Fields
import Docbase.Proofs.Projection.NameTables

namespace Docbase

/-- The tables after names have been placed in one of them. -/
def NameTables.placeAll (ts : NameTables) (id : TableId) (keys : List String) : NameTables :=
  keys.foldl (fun ts key => (ts.place id key).1) ts

/-- A table of names with an index of their positions. -/
structure IndexedNames where
  names : List String
  index : Fields Nat

namespace IndexedNames

variable {t : IndexedNames} {name key : String}

/-- A table of given names. The index is filled from the end, so that of equal names the first counts. -/
def ofNames (names : List String) : IndexedNames :=
  ⟨names, Fields.ofPairs names.zipIdx.reverse⟩

def indexOf? (t : IndexedNames) (name : String) : Option Nat := t.index.get? name

/-- The position of a name, which is added if it is unknown. -/
def place (t : IndexedNames) (name : String) : IndexedNames × Nat :=
  match t.indexOf? name with
  | some i => (t, i)
  | none => (⟨t.names ++ [name], t.index.insert name t.names.length⟩, t.names.length)

def placeAll (t : IndexedNames) (keys : List String) : IndexedNames := keys.foldl (fun t key => (t.place key).1) t

/-- Whether a table answers as the one that stands under an identifier. -/
def Answers (t : IndexedNames) (ts : NameTables) (id : TableId) : Prop :=
  ts.names id = t.names ∧ ∀ name, ts.indexOf? id name = t.indexOf? name ∧ (ts.place id name).2 = (t.place name).2

/-- Whether the index finds the names where a search finds them. -/
def Exact (t : IndexedNames) : Prop := ∀ name, t.indexOf? name = t.names.idxOf? name

theorem get?_zipIdx (names : List String) (k : Nat) (name : String) :
    Fields.get? (names.zipIdx k) name = (names.idxOf? name).map fun i => i + k := by
  induction names generalizing k with
  | nil => rfl
  | cons first names ih =>
    rw [List.zipIdx_cons, Fields.get?, List.idxOf?_cons]
    by_cases hname : first = name
    · subst hname
      simp
    · have hne : ¬(first == name) = true := by simpa using hname
      rw [if_neg hname, ih, if_neg hne, Option.map_map]
      congr 1
      funext i
      simp only [Function.comp_apply]
      omega

theorem exact_ofNames (names : List String) : (ofNames names).Exact := by
  intro name
  rw [indexOf?, ofNames, Fields.get?_ofPairs, List.reverse_reverse, get?_zipIdx]
  simp

theorem exact_place (h : t.Exact) (name : String) : (t.place name).1.Exact := by
  unfold place
  cases hi : t.indexOf? name with
  | some i => exact h
  | none =>
    intro other
    have hnew : t.names.idxOf? name = none := (h name).symm.trans hi
    rw [indexOf?, NameTables.idxOf?_append, ← h other]
    by_cases hother : other = name
    · subst hother
      rw [Fields.get?_insert_self, hi]
      simp [List.idxOf?_cons]
    · rw [Fields.get?_insert_of_ne _ _ hother, indexOf?]
      have hne : ¬(name == other) = true := by simpa using Ne.symm hother
      simp [List.idxOf?_cons, hne]

theorem Exact.indexOf?_eq_some_iff (h : t.Exact) {i : Nat} :
    t.indexOf? name = some i ↔ t.names[i]? = some name ∧ ∀ j < i, t.names[j]? ≠ some name := by
  rw [h name, List.idxOf?_eq_some_iff]
  constructor
  · rintro ⟨hi, hname, hfirst⟩
    refine ⟨by rw [List.getElem?_eq_getElem hi, hname], fun j hj hname' => ?_⟩
    exact hfirst j hj (List.getElem?_eq_some_iff.1 hname').2
  · rintro ⟨hname, hfirst⟩
    obtain ⟨hi, hname⟩ := List.getElem?_eq_some_iff.1 hname
    refine ⟨hi, hname, fun j hj hname' => hfirst j hj ?_⟩
    rw [List.getElem?_eq_getElem (hj.trans hi), hname']

theorem Exact.indexOf?_eq_none_iff (h : t.Exact) : t.indexOf? name = none ↔ name ∉ t.names := by
  rw [h name, List.idxOf?_eq_none_iff]

/-- Whether a table is the one that stands under an identifier, and has an index that is right. -/
structure Represents (t : IndexedNames) (ts : NameTables) (id : TableId) : Prop where
  has : ts.Has id
  names : ts.names id = t.names
  exact : t.Exact

variable {ts : NameTables} {id : TableId}

theorem represents_ofNames (ts : NameTables) (names : List String) :
    (ofNames names).Represents (ts.create names).1 (ts.create names).2 where
  has := by simp [NameTables.Has, NameTables.create]
  names := by simp [NameTables.names, NameTables.create, ofNames]
  exact := exact_ofNames names

theorem Represents.indexOf?_eq (h : t.Represents ts id) (name : String) :
    ts.indexOf? id name = t.indexOf? name := by
  rw [NameTables.indexOf?, h.names, h.exact]

theorem Represents.place (h : t.Represents ts id) (name : String) :
    (t.place name).1.Represents (ts.place id name).1 id ∧ (ts.place id name).2 = (t.place name).2 := by
  have hexact := exact_place h.exact name
  unfold IndexedNames.place at hexact ⊢
  cases hi : t.indexOf? name with
  | some i =>
    have hplace : ts.place id name = (ts, i) := by rw [NameTables.place, h.indexOf?_eq, hi]
    rw [hplace]
    exact ⟨h, rfl⟩
  | none =>
    have hnew : ts.indexOf? id name = none := (h.indexOf?_eq name).trans hi
    rw [hi] at hexact
    refine ⟨⟨(NameTables.grows_place h.has name).has h.has, ?_, hexact⟩, ?_⟩
    · rw [NameTables.names_place h.has, if_neg (NameTables.indexOf?_eq_none_iff.1 hnew), h.names]
    · rw [NameTables.place, hnew, h.names]

theorem Represents.places (h : t.Represents ts id) (keys : List String) :
    (t.placeAll keys).Represents (ts.placeAll id keys) id := by
  induction keys generalizing t ts with
  | nil => exact h
  | cons key keys ih => exact ih (h.place key).1

/-- **A table with an index answers as one that is searched**, from the names that it is made of and
through all names that are added. -/
theorem answers_placeAll (ts : NameTables) (names keys : List String) :
    ((ofNames names).placeAll keys).Answers ((ts.create names).1.placeAll (ts.create names).2 keys)
      (ts.create names).2 := by
  have hrun := (represents_ofNames ts names).places keys
  exact ⟨hrun.names, fun name => ⟨hrun.indexOf?_eq name, (hrun.place name).2⟩⟩

end IndexedNames
end Docbase
