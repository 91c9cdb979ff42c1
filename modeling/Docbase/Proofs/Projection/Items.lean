/-
What projections hold. A projection holds the fields of a document, under names of
its table (`Projection.Holds`), if it gives each of them the value that the
document has under it. Putting a value carries this on (`Holds.put`), and so does
whatever makes the table grow (`Holds.grown`), so projections that share a table do
not disturb each other: `ofDocuments_holds`.

A table may hold a name at more than one position, and looking the name up finds the
first of them. A projection all of whose values stand there (`Projection.Addressable`)
has the same pairs to find and to go through, whatever the table holds. Putting a value
keeps this up (`Addressable.put`), so projections made of documents are like this.

The pairs of a projection come in the order of the table, which depends on what
stood in the table before; they are those of the document in some order
(`Holds.items_perm`).
-/
import Docbase.Projection.Basic
import Docbase.Proofs.Fields
import Docbase.Proofs.Projection.NameTables
import Mathlib.Data.List.Forall2

namespace Docbase

/-- The fields of a document under the names that a strategy gives them; of fields that get one name,
the first gives its place and the last its value. -/
def NamingStrategy.fieldsOf (s : NamingStrategy) (d : Document) : Document :=
  Fields.ofPairs (d.map fun p => (s.fieldName p.1, p.2))

theorem NamingStrategy.keys_renamed (s : NamingStrategy) (d : Document) :
    (d.map fun p => (s.fieldName p.1, p.2)).map Prod.fst = (Fields.keys d).map s.fieldName := by
  rw [Fields.keys, List.map_map, List.map_map]
  rfl

namespace Projection

open NameTables

variable {ts ts' : NameTables} {t : TableId} {p p' : Projection} {xs : Document} {s : NamingStrategy} {i : Nat}
  {name : String} {v : Value}

/-! ## Slots -/

theorem length_fillSlot {n : Nat} {slots : List (Option Value)} {i : Nat} (hslots : slots.length ≤ n)
    (hi : i < n) (v : Value) : (fillSlot n slots i v).length ≤ n := by
  unfold fillSlot
  dsimp only
  split
  · rw [List.length_set, List.length_append, List.length_replicate]
    omega
  · rwa [List.length_set]

theorem slot_fillSlot (n : Nat) (slots : List (Option Value)) (i j : Nat) (v : Value) :
    ((fillSlot n slots i v)[j]?).bind id = if i = j then some v else (slots[j]?).bind id := by
  unfold fillSlot
  dsimp only
  rw [List.getElem?_set]
  split
  · rw [if_pos]
    · rfl
    · split
      · rw [List.length_append, List.length_replicate]
        omega
      · omega
  · split
    · -- The slots that are new are empty, like those that there were none of.
      rw [List.getElem?_append]
      split
      · rfl
      · next hj =>
        rw [List.getElem?_replicate, List.getElem?_eq_none (Nat.le_of_not_lt hj)]
        split <;> rfl
    · rfl

/-! ## Fields held -/

/-- Whether a projection holds the fields of a document, within its table. -/
structure Holds (ts : NameTables) (p : Projection) (xs : Document) : Prop where
  fits : p.slots.length ≤ (ts.names p.table).length
  get?_eq (name : String) : p.get? ts name = xs.get? name

theorem holds_onTable (ts : NameTables) (t : TableId) (s : NamingStrategy) : (onTable t s).Holds ts [] := by
  refine ⟨Nat.zero_le _, fun name => ?_⟩
  rw [get?]
  cases ts.indexOf? (onTable t s).table name with
  | none => rfl
  | some i => rfl

theorem slot?_eq_none (h : p.slots.length ≤ i) : p.slot? i = none := by
  rw [slot?, List.getElem?_eq_none h, Option.bind_none]

/-- What a projection gives does not depend on what has been added to its table. -/
theorem get?_grown (hslots : p.slots.length ≤ (ts.names p.table).length) (hgrows : Grows p.table ts ts')
    (name : String) : p.get? ts' name = p.get? ts name := by
  rw [get?, get?]
  cases hi : ts.indexOf? p.table name with
  | some i => rw [hgrows.indexOf? hi]
  | none =>
    cases hj : ts'.indexOf? p.table name with
    | none => rfl
    | some j => exact slot?_eq_none (hslots.trans (hgrows.le_of_indexOf? hi hj))

theorem Holds.grown (h : p.Holds ts xs) (hgrows : Grows p.table ts ts') : p.Holds ts' xs :=
  ⟨h.fits.trans hgrows.names.length_le, fun name => (get?_grown h.fits hgrows name).trans (h.get?_eq name)⟩

theorem put_eq (ts : NameTables) (p : Projection) (key : String) (v : Value) : p.put ts key v =
    let placed := ts.place p.table key
    (placed.1, { p with slots := fillSlot (placed.1.names p.table).length p.slots placed.2 v }) := rfl

theorem grows_put (ht : ts.Has p.table) (key : String) (v : Value) : Grows p.table ts (p.put ts key v).1 :=
  grows_place ht key

theorem length_slots_put (hslots : p.slots.length ≤ (ts.names p.table).length) (ht : ts.Has p.table)
    (key : String) (v : Value) :
    (p.put ts key v).2.slots.length ≤ ((p.put ts key v).1.names p.table).length :=
  length_fillSlot (hslots.trans (grows_place ht key).names.length_le) (lt_of_indexOf? (indexOf?_place ht key)) v

theorem get?_put_self (ht : ts.Has p.table) (key : String) (v : Value) :
    (p.put ts key v).2.get? (p.put ts key v).1 key = some v := by
  rw [put_eq, get?]
  dsimp only
  rw [indexOf?_place ht, Option.bind_some, slot?, slot_fillSlot, if_pos rfl]

theorem get?_put_of_ne (hslots : p.slots.length ≤ (ts.names p.table).length) (ht : ts.Has p.table)
    {key name : String} (hname : name ≠ key) (v : Value) :
    (p.put ts key v).2.get? (p.put ts key v).1 name = p.get? ts name := by
  rw [← get?_grown hslots (grows_place ht key), put_eq, get?, get?]
  dsimp only
  cases hj : (ts.place p.table key).1.indexOf? p.table name with
  | none => rfl
  | some j =>
    have hne : (ts.place p.table key).2 ≠ j := by
      rintro rfl
      exact hname (eq_of_indexOf? hj (indexOf?_place ht key))
    rw [Option.bind_some, Option.bind_some, slot?, slot_fillSlot, if_neg hne, slot?]

theorem Holds.put (h : p.Holds ts xs) (ht : ts.Has p.table) (key : String) (v : Value) :
    (p.put ts key v).2.Holds (p.put ts key v).1 (xs.insert key v) := by
  refine ⟨length_slots_put h.fits ht key v, fun name => ?_⟩
  by_cases hname : name = key
  · subst hname
    rw [get?_put_self ht, Fields.get?_insert_self]
  · rw [get?_put_of_ne h.fits ht hname, Fields.get?_insert_of_ne _ _ hname, h.get?_eq]

/-! ## Values at positions -/

/-- Whether a value stands at a position for which the table has a name. -/
def HasAt (ts : NameTables) (p : Projection) (i : Nat) (name : String) (v : Value) : Prop :=
  (ts.names p.table)[i]? = some name ∧ p.slot? i = some v

/-- Whether every value stands at the position where its name is found. -/
def Addressable (ts : NameTables) (p : Projection) : Prop :=
  ∀ i name v, p.HasAt ts i name v → ts.indexOf? p.table name = some i

theorem hasAt_of_get? (h : p.get? ts name = some v) :
    ∃ i, ts.indexOf? p.table name = some i ∧ p.HasAt ts i name v := by
  obtain ⟨i, hi, hslot⟩ := Option.bind_eq_some_iff.1 h
  exact ⟨i, hi, names_of_indexOf? hi, hslot⟩

theorem Addressable.get?_eq_some_iff (h : p.Addressable ts) :
    p.get? ts name = some v ↔ ∃ i, p.HasAt ts i name v := by
  constructor
  · intro hget
    obtain ⟨i, -, hat⟩ := hasAt_of_get? hget
    exact ⟨i, hat⟩
  · rintro ⟨i, hat⟩
    rw [get?, h i name v hat, Option.bind_some, hat.2]

theorem addressable_onTable (ts : NameTables) (t : TableId) (s : NamingStrategy) :
    (onTable t s).Addressable ts := by
  rintro i name v ⟨-, hslot⟩
  cases hslot

/-- Where names are given once, each is found where it stands. -/
theorem addressable_of_nodup (hnodup : (ts.names p.table).Nodup) : p.Addressable ts := by
  rintro i name v ⟨hname, -⟩
  obtain ⟨hi, rfl⟩ := List.getElem?_eq_some_iff.1 hname
  exact List.idxOf?_eq_some_iff.2 ⟨hi, rfl, fun j hj heq => hj.ne (hnodup.getElem_inj_iff.1 heq)⟩

theorem Addressable.grown (h : p.Addressable ts) (hslots : p.slots.length ≤ (ts.names p.table).length)
    (hgrows : Grows p.table ts ts') : p.Addressable ts' := by
  rintro i name v ⟨hname, hslot⟩
  have hi : i < p.slots.length := by
    by_contra hi
    rw [slot?_eq_none (Nat.le_of_not_lt hi)] at hslot
    cases hslot
  -- The value is older than the names that are new.
  have hold : (ts.names p.table)[i]? = some name := by
    obtain ⟨more, hmore⟩ := hgrows.names
    rwa [← hmore, List.getElem?_append_left (hi.trans_le hslots)] at hname
  exact hgrows.indexOf? (h i name v ⟨hold, hslot⟩)

theorem Addressable.put (h : p.Addressable ts) (hslots : p.slots.length ≤ (ts.names p.table).length)
    (ht : ts.Has p.table) (key : String) (v : Value) : (p.put ts key v).2.Addressable (p.put ts key v).1 := by
  have hplaced := indexOf?_place ht key
  rintro i name w ⟨hname, hslot⟩
  rw [put_eq] at hname hslot ⊢
  dsimp only at hname hslot ⊢
  rw [slot?, slot_fillSlot] at hslot
  split at hslot
  · next hi =>
    subst hi
    rw [names_of_indexOf? hplaced] at hname
    cases hname
    exact hplaced
  · exact h.grown hslots (grows_place ht key) i name w ⟨hname, hslot⟩

/-- Emptying slots leaves the other values where they are. -/
theorem Addressable.of_slots (h : p.Addressable ts) (htable : p'.table = p.table)
    (hslots : ∀ i v, p'.slot? i = some v → p.slot? i = some v) : p'.Addressable ts := by
  rintro i name v ⟨hname, hslot⟩
  rw [htable] at hname ⊢
  exact h i name v ⟨hname, hslots i v hslot⟩

/-! ## Documents -/

theorem setFields_cons (ts : NameTables) (p : Projection) (name : String) (v : Value) (d : Document) :
    setFields ts p ((name, v) :: d) =
      setFields (p.put ts (p.strategy.fieldName name) v).1 (p.put ts (p.strategy.fieldName name) v).2 d := rfl

/-- Setting the fields of a document keeps to the table, and inserts them. -/
theorem Holds.setFields (h : p.Holds ts xs) (ht : ts.Has p.table) (d : Document) :
    Grows p.table ts (p.setFields ts d).1 ∧ (p.setFields ts d).2.table = p.table ∧
      (p.setFields ts d).2.Holds (p.setFields ts d).1
        ((d.map fun f => (p.strategy.fieldName f.1, f.2)).foldl (fun xs f => Fields.insert xs f.1 f.2) xs) := by
  induction d generalizing ts p xs with
  | nil => exact ⟨.refl _ _, rfl, h⟩
  | cons f d ih =>
    obtain ⟨name, v⟩ := f
    have hput := h.put ht (p.strategy.fieldName name) v
    have hgrows := grows_put ht (p.strategy.fieldName name) v
    obtain ⟨hgrows', htable, hholds⟩ := ih hput (hgrows.has ht)
    rw [setFields_cons]
    exact ⟨hgrows.trans hgrows', htable, hholds⟩

theorem ofDocument_holds (ht : ts.Has t) (d : Document) (s : NamingStrategy) :
    Grows t ts (ofDocument ts t d s).1 ∧ (ofDocument ts t d s).2.table = t ∧
      (ofDocument ts t d s).2.Holds (ofDocument ts t d s).1 (s.fieldsOf d) :=
  (holds_onTable ts t s).setFields ht d

theorem Addressable.setFields (h : p.Addressable ts) (hslots : p.slots.length ≤ (ts.names p.table).length)
    (ht : ts.Has p.table) (d : Document) : (p.setFields ts d).2.Addressable (p.setFields ts d).1 := by
  induction d generalizing ts p with
  | nil => exact h
  | cons f d ih =>
    have hgrows := grows_put ht (p.strategy.fieldName f.1) f.2
    exact ih (h.put hslots ht _ f.2) (length_slots_put hslots ht _ f.2) (hgrows.has ht)

theorem addressable_ofDocument (ht : ts.Has t) (d : Document) (s : NamingStrategy) :
    (ofDocument ts t d s).2.Addressable (ofDocument ts t d s).1 :=
  (addressable_onTable ts t s).setFields (Nat.zero_le _) ht d

theorem ofDocuments_cons (ts : NameTables) (t : TableId) (s : NamingStrategy) (d : Document)
    (ds : List Document) : ofDocuments ts t s (d :: ds) =
      ((ofDocuments (ofDocument ts t d s).1 t s ds).1,
        (ofDocument ts t d s).2 :: (ofDocuments (ofDocument ts t d s).1 t s ds).2) := rfl

/-- Projections over one table hold the fields of their documents, those of all others with them. -/
theorem ofDocuments_holds (ht : ts.Has t) (ds : List Document) :
    Grows t ts (ofDocuments ts t s ds).1 ∧
      List.Forall₂ (fun p d => p.Addressable (ofDocuments ts t s ds).1 ∧
        p.Holds (ofDocuments ts t s ds).1 (s.fieldsOf d)) (ofDocuments ts t s ds).2 ds := by
  induction ds generalizing ts with
  | nil => exact ⟨.refl _ _, .nil⟩
  | cons d ds ih =>
    obtain ⟨hgrows, htable, hholds⟩ := ofDocument_holds (s := s) ht d
    have haddr := addressable_ofDocument (s := s) ht d
    obtain ⟨hgrows', hrest⟩ := ih (hgrows.has ht)
    have hgrown : Grows (ofDocument ts t d s).2.table (ofDocument ts t d s).1
        (ofDocuments (ofDocument ts t d s).1 t s ds).1 := by
      rw [htable]
      exact hgrows'
    rw [ofDocuments_cons]
    exact ⟨hgrows.trans hgrows', .cons ⟨haddr.grown hholds.fits hgrown, hholds.grown hgrown⟩ hrest⟩

/-! ## Pairs -/

/-- The pairs of names and slots that are filled. -/
def filled (names : List String) (slots : List (Option Value)) : Document :=
  (names.zip slots).filterMap fun (name, slot) => slot.map fun v => (name, v)

theorem filled_cons (name : String) (names : List String) (slot : Option Value) (slots : List (Option Value)) :
    filled (name :: names) (slot :: slots) = (slot.map fun v => (name, v)).toList ++ filled names slots := by
  cases slot <;> simp [filled]

theorem filled_append {names : List String} {slots : List (Option Value)} (h : slots.length ≤ names.length)
    (more : List String) : filled (names ++ more) slots = filled names slots := by
  induction names generalizing slots with
  | nil =>
    obtain rfl : slots = [] := List.length_eq_zero_iff.1 (Nat.le_zero.1 h)
    simp [filled]
  | cons name names ih =>
    cases slots with
    | nil => simp [filled]
    | cons slot slots => rw [List.cons_append, filled_cons, filled_cons, ih (Nat.le_of_succ_le_succ h)]

theorem length_filled {names : List String} {slots : List (Option Value)} (h : slots.length ≤ names.length) :
    (filled names slots).length = slots.countP Option.isSome := by
  induction names generalizing slots with
  | nil =>
    obtain rfl : slots = [] := List.length_eq_zero_iff.1 (Nat.le_zero.1 h)
    rfl
  | cons name names ih =>
    cases slots with
    | nil => rfl
    | cons slot slots =>
      rw [filled_cons, List.length_append, ih (Nat.le_of_succ_le_succ h), List.countP_cons, Nat.add_comm]
      cases slot <;> rfl

theorem items_eq_filled (ts : NameTables) (p : Projection) : p.items ts = filled (ts.names p.table) p.slots := rfl

theorem items_grown (hslots : p.slots.length ≤ (ts.names p.table).length) (hgrows : Grows p.table ts ts') :
    p.items ts' = p.items ts := by
  obtain ⟨more, hmore⟩ := hgrows.names
  rw [items_eq_filled, items_eq_filled, ← hmore, filled_append hslots]

theorem length_items (hslots : p.slots.length ≤ (ts.names p.table).length) : (p.items ts).length = p.length :=
  length_filled hslots

theorem hasAt_iff : p.HasAt ts i name v ↔ ((ts.names p.table).zip p.slots)[i]? = some (name, some v) := by
  rw [HasAt, slot?, Option.bind_eq_some_iff, List.getElem?_zip_eq_some]
  refine and_congr_right fun _ => ⟨?_, fun h => ⟨some v, h, rfl⟩⟩
  rintro ⟨slot, hslot, rfl⟩
  exact hslot

theorem mem_items_iff : (name, v) ∈ p.items ts ↔ ∃ i, p.HasAt ts i name v := by
  simp only [hasAt_iff, ← List.mem_iff_getElem?]
  rw [items_eq_filled, filled, List.mem_filterMap]
  constructor
  · rintro ⟨⟨other, slot⟩, hmem, hpair⟩
    obtain ⟨w, rfl, hpair⟩ := Option.map_eq_some_iff.1 hpair
    cases hpair
    exact hmem
  · exact fun hmem => ⟨_, hmem, rfl⟩

/-- The pairs have each name once iff values stand at no two positions of one name. -/
theorem nodup_keys_items_iff : (Fields.keys (p.items ts)).Nodup ↔
    ∀ i j name v w, p.HasAt ts i name v → p.HasAt ts j name w → i = j := by
  rw [items_eq_filled, filled, Fields.keys, List.Nodup, List.pairwise_map, List.pairwise_filterMap,
    List.pairwise_iff_getElem]
  constructor
  · intro h i j name v w hi hj
    -- The pairs are compared in the order of their positions, which may be either here.
    have hlt {i j : Nat} {v w : Value} (hi : p.HasAt ts i name v) (hj : p.HasAt ts j name w) : ¬i < j := by
      intro hlt
      obtain ⟨hi', hvi⟩ := List.getElem?_eq_some_iff.1 (hasAt_iff.1 hi)
      obtain ⟨hj', hvj⟩ := List.getElem?_eq_some_iff.1 (hasAt_iff.1 hj)
      exact h i j hi' hj' hlt (name, v) (by rw [hvi]; rfl) (name, w) (by rw [hvj]; rfl) rfl
    exact Nat.le_antisymm (Nat.le_of_not_lt (hlt hj hi)) (Nat.le_of_not_lt (hlt hi hj))
  · intro h i j hi hj hij a ha b hb hname
    obtain ⟨v, hv, rfl⟩ := Option.map_eq_some_iff.1 ha
    obtain ⟨w, hw, rfl⟩ := Option.map_eq_some_iff.1 hb
    have hati := hasAt_iff.2 ((List.getElem?_eq_getElem hi).trans (congrArg some (Prod.ext rfl hv)))
    have hatj := hasAt_iff.2 ((List.getElem?_eq_getElem hj).trans (congrArg some (Prod.ext hname.symm hw)))
    exact absurd (h i j _ v w hati hatj) hij.ne

theorem Addressable.nodup_keys_items (h : p.Addressable ts) : (Fields.keys (p.items ts)).Nodup :=
  nodup_keys_items_iff.2 fun i j name v w hi hj =>
    Option.some.inj ((h i name v hi).symm.trans (h j name w hj))

theorem Addressable.get?_items (h : p.Addressable ts) (name : String) :
    Fields.get? (p.items ts) name = p.get? ts name := by
  refine Option.ext fun v => ?_
  rw [h.get?_eq_some_iff, ← mem_items_iff]
  exact ⟨Fields.mem_of_get?, Fields.get?_of_mem h.nodup_keys_items⟩

/-- The pairs of a projection are the fields that it holds, in some order. -/
theorem Holds.items_perm (h : p.Holds ts xs) (haddr : p.Addressable ts) (hxs : (Fields.keys xs).Nodup) :
    (p.items ts).Perm xs :=
  Fields.perm_of_get? haddr.nodup_keys_items hxs fun name => (haddr.get?_items name).trans (h.get?_eq name)

/-- **Projections of documents over one table have the fields of their documents**, whatever names the
table holds. -/
theorem ofDocuments_items (ht : ts.Has t) (ds : List Document) :
    List.Forall₂ (fun p d => (p.items (ofDocuments ts t s ds).1).Perm (s.fieldsOf d))
      (ofDocuments ts t s ds).2 ds :=
  (ofDocuments_holds ht ds).2.imp fun _ _ h => h.2.items_perm h.1 (Fields.nodup_keys_ofPairs _)

end Projection
end Docbase
