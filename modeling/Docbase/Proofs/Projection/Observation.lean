/-
What can be seen of a projection: what it has under each name, how many values it has,
and its pairs. All of it stays the same while the tables grow (`Fits.observe_extended`),
as long as a projection has no more slots than its table has names (`Projection.Fits`).
An operation alters one name (`alters_put`, `alters_remove`), or empties all (`get?_clear`).
-/
import Docbase.Proofs.Projection.Items

namespace Docbase

structure Observation where
  get? : String → Option Value
  contains : String → Bool
  length : Nat
  items : List (String × Value)

/-- Whether one name has a given value, or none, in the second of two observations, and all other names
have there what they have in the first. -/
structure Observation.Alters (o : Observation) (key : String) (v : Option Value) (o' : Observation) : Prop where
  get?_self : o'.get? key = v
  contains_self : o'.contains key = v.isSome
  get?_of_ne : ∀ name, name ≠ key → o'.get? name = o.get? name
  contains_of_ne : ∀ name, name ≠ key → o'.contains name = o.contains name

namespace Projection

open NameTables

variable {ts ts' : NameTables} {t : TableId} {p p' : Projection} {key name : String}

def observe (ts : NameTables) (p : Projection) : Observation := ⟨p.get? ts, p.contains ts, p.length, p.items ts⟩

theorem alters_of_get? {v : Option Value} (hself : p'.get? ts' key = v)
    (hne : ∀ name, name ≠ key → p'.get? ts' name = p.get? ts name) :
    (p.observe ts).Alters key v (p'.observe ts') where
  get?_self := hself
  contains_self := congrArg Option.isSome hself
  get?_of_ne := hne
  contains_of_ne name h := congrArg Option.isSome (hne name h)

/-! ## Fitting a table -/

/-- Whether a projection has its table, and no more slots than the table has names. -/
structure Fits (ts : NameTables) (p : Projection) : Prop where
  has : ts.Has p.table
  slots : p.slots.length ≤ (ts.names p.table).length

theorem Fits.extended (h : p.Fits ts) (hts : ts.Extends ts') : p.Fits ts' :=
  have hgrows := hts.grows h.has
  ⟨hgrows.has h.has, h.slots.trans hgrows.names.length_le⟩

/-- Nothing is seen of a growing table. -/
theorem Fits.observe_extended (h : p.Fits ts) (hts : ts.Extends ts') : p.observe ts' = p.observe ts := by
  have hgrows := hts.grows h.has
  have hget : p.get? ts' = p.get? ts := funext (get?_grown h.slots hgrows)
  have hcontains : p.contains ts' = p.contains ts :=
    funext fun name => congrArg Option.isSome (get?_grown h.slots hgrows name)
  rw [observe, hget, hcontains, items_grown h.slots hgrows, observe]

theorem Fits.of_slots (h : p.Fits ts) (htable : p'.table = p.table) (hslots : p'.slots.length = p.slots.length) :
    p'.Fits ts := by
  refine ⟨?_, ?_⟩
  · rw [htable]
    exact h.has
  · rw [htable, hslots]
    exact h.slots

theorem fits_onTable (ht : ts.Has t) (s : NamingStrategy) : (onTable t s).Fits ts := ⟨ht, Nat.zero_le _⟩

theorem fits_ofParts (ht : ts.Has t) {values : List Value} {s : NamingStrategy}
    (h : ofParts ts t values s = .ok p) : p.Fits ts := by
  unfold ofParts at h
  split at h
  · cases h
  · next hlength =>
    cases h
    refine ⟨ht, ?_⟩
    rw [List.length_map]
    exact Nat.le_of_not_lt hlength

/-! ## Putting a value -/

theorem Fits.put (h : p.Fits ts) (key : String) (v : Value) : (p.put ts key v).2.Fits (p.put ts key v).1 :=
  ⟨(grows_put h.has key v).has h.has, length_slots_put h.slots h.has key v⟩

theorem alters_put (h : p.Fits ts) (key : String) (v : Value) :
    (p.observe ts).Alters key (some v) ((p.put ts key v).2.observe (p.put ts key v).1) :=
  alters_of_get? (get?_put_self h.has key v) fun _ hname => get?_put_of_ne h.slots h.has hname v

theorem Fits.insert (h : p.Fits ts) {name : String} {v : Value} (hinsert : p.insert ts name v = .ok (ts', p')) :
    ts.Extends ts' ∧ p'.Fits ts' := by
  unfold Projection.insert at hinsert
  dsimp only at hinsert
  split at hinsert
  · cases hinsert
  · cases hinsert
    exact ⟨extends_place _ _ _, h.put _ v⟩

theorem Fits.setFields (h : p.Fits ts) (d : Document) :
    ts.Extends (p.setFields ts d).1 ∧ (p.setFields ts d).2.Fits (p.setFields ts d).1 := by
  induction d generalizing ts p with
  | nil => exact ⟨.refl ts, h⟩
  | cons f d ih =>
    obtain ⟨hts, hfits⟩ := ih (h.put (p.strategy.fieldName f.1) f.2)
    exact ⟨(extends_place ts p.table _).trans hts, hfits⟩

theorem fits_ofDocument (ht : ts.Has t) (d : Document) (s : NamingStrategy) :
    ts.Extends (ofDocument ts t d s).1 ∧ (ofDocument ts t d s).2.Fits (ofDocument ts t d s).1 :=
  (fits_onTable ht s).setFields d

/-! ## Emptying slots -/

/-- Removing a name tells whether there was a value, and empties its slot if there was. -/
theorem remove_cases (ts : NameTables) (p : Projection) (name : String) :
    (p.get? ts name = none ∧ p.remove ts name = (p, false)) ∨
      ∃ i, ts.indexOf? p.table name = some i ∧ (p.get? ts name).isSome = true ∧
        p.remove ts name = ({ p with slots := p.slots.set i none }, true) := by
  unfold remove get?
  cases hi : ts.indexOf? p.table name with
  | none => exact .inl ⟨rfl, rfl⟩
  | some i =>
    dsimp only
    cases hslot : p.slot? i with
    | none => exact .inl ⟨hslot, rfl⟩
    | some v => exact .inr ⟨i, rfl, by rw [Option.bind_some, hslot]; rfl, rfl⟩

theorem remove_snd (ts : NameTables) (p : Projection) (name : String) :
    (p.remove ts name).2 = p.contains ts name := by
  rw [contains]
  rcases remove_cases ts p name with ⟨hget, hremove⟩ | ⟨i, -, hget, hremove⟩
  · rw [hget, hremove]
    rfl
  · rw [hget, hremove]

theorem Fits.remove (h : p.Fits ts) (name : String) : (p.remove ts name).1.Fits ts := by
  rcases remove_cases ts p name with ⟨-, hremove⟩ | ⟨i, -, -, hremove⟩
  · rw [hremove]
    exact h
  · rw [hremove]
    exact h.of_slots rfl List.length_set

theorem alters_remove (ts : NameTables) (p : Projection) (name : String) :
    (p.observe ts).Alters name none ((p.remove ts name).1.observe ts) := by
  rcases remove_cases ts p name with ⟨hget, hremove⟩ | ⟨i, hi, -, hremove⟩
  · rw [hremove]
    exact alters_of_get? hget fun _ _ => rfl
  · rw [hremove]
    refine alters_of_get? ?_ fun other hother => ?_
    · rw [get?, hi, Option.bind_some, slot?, List.getElem?_set_self']
      cases p.slots[i]? <;> rfl
    · rw [get?, get?]
      dsimp only
      cases hj : ts.indexOf? p.table other with
      | none => rfl
      | some j =>
        have hne : i ≠ j := by
          rintro rfl
          exact hother (eq_of_indexOf? hj hi)
        rw [Option.bind_some, Option.bind_some, slot?, slot?, List.getElem?_set_ne hne]

theorem get?_clear (ts : NameTables) (p : Projection) (name : String) : p.clear.get? ts name = none := by
  rw [get?]
  cases ts.indexOf? p.clear.table name with
  | none => rfl
  | some i =>
    rw [Option.bind_some, slot?, clear, List.getElem?_map]
    cases p.slots[i]? <;> rfl

theorem Fits.clear (h : p.Fits ts) : p.clear.Fits ts := h.of_slots rfl (List.length_map _)

end Projection
end Docbase
