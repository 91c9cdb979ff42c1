/-
The views of a projection. What a projection holds is looked up by name, gone through in
the order of the table, counted, and turned into a document. These views agree
(`Projection.ViewsAgree`) iff every value stands at the position where its name is found
(`viewsAgree_iff`).

Of the ways to make a projection, only that from values by position can put a value
elsewhere, and does so iff it reaches a second position of a name
(`addressable_ofParts_iff`). No step moves a value, so what a projection is made as, it
stays (`Step.run_addressableAt`, `Reaches.addressableAt`). Together these tell in which
workspaces which views agree: `Workspace.views_agree_iff`.
-/
import Docbase.Proofs.Projection.Workspace

namespace Docbase

namespace Projection

open NameTables

variable {ts ts' : NameTables} {t : TableId} {p p' : Projection} {s : NamingStrategy}

/-- Whether all views of a projection show the same names, and the same values under them. -/
structure ViewsAgree (ts : NameTables) (p : Projection) : Prop where
  keys (name : String) : name ∈ p.keys ts ↔ p.contains ts name = true
  document_keys (name : String) : name ∈ Fields.keys (p.toDocument ts) ↔ p.contains ts name = true
  document (name : String) : (p.toDocument ts).get? name = p.get? ts name
  length : p.length = (Fields.keys (p.toDocument ts)).length

theorem Addressable.toDocument_eq (h : p.Addressable ts) : p.toDocument ts = p.items ts :=
  Fields.ofPairs_of_nodup h.nodup_keys_items

theorem Addressable.get?_toDocument (h : p.Addressable ts) (name : String) :
    (p.toDocument ts).get? name = p.get? ts name := by
  rw [h.toDocument_eq, h.get?_items]

theorem Addressable.viewsAgree (h : p.Addressable ts) (hslots : p.slots.length ≤ (ts.names p.table).length) :
    p.ViewsAgree ts where
  keys name := by
    rw [contains, ← h.get?_items, Fields.isSome_get?_iff]
    rfl
  document_keys name := by rw [contains, ← h.get?_toDocument, Fields.isSome_get?_iff]
  document := h.get?_toDocument
  length := by
    rw [Fields.keys, List.length_map, toDocument, Fields.length_ofPairs_eq_iff.2 h.nodup_keys_items,
      length_items hslots]

/-- Where a name is gone through it is found, and if the document has as many fields as there are values,
there is no other position at which it could have been gone through. -/
theorem ViewsAgree.addressable (h : p.ViewsAgree ts) (hslots : p.slots.length ≤ (ts.names p.table).length) :
    p.Addressable ts := by
  have hlength : (p.toDocument ts).length = (p.items ts).length := by
    rw [length_items hslots, h.length, Fields.keys, List.length_map]
  have hnodup : (Fields.keys (p.items ts)).Nodup := Fields.length_ofPairs_eq_iff.1 hlength
  intro i name v hat
  have hmem : name ∈ p.keys ts := List.mem_map_of_mem (mem_items_iff.2 ⟨i, hat⟩)
  obtain ⟨w, hget⟩ := Option.isSome_iff_exists.1 ((h.keys name).1 hmem)
  obtain ⟨j, hj, hat'⟩ := hasAt_of_get? hget
  rwa [nodup_keys_items_iff.1 hnodup i j name v w hat hat']

/-- **The views of a projection agree iff every value stands where its name is found.** -/
theorem viewsAgree_iff (hslots : p.slots.length ≤ (ts.names p.table).length) :
    p.ViewsAgree ts ↔ p.Addressable ts :=
  ⟨fun h => h.addressable hslots, fun h => h.viewsAgree hslots⟩

/-! ## Operations -/

theorem Addressable.insert (h : p.Addressable ts) (hfits : p.Fits ts) {name : String} {v : Value}
    (hinsert : p.insert ts name v = .ok (ts', p')) : p'.Addressable ts' := by
  unfold Projection.insert at hinsert
  dsimp only at hinsert
  split at hinsert
  · cases hinsert
  · cases hinsert
    exact h.put hfits.slots hfits.has _ v

theorem Addressable.remove (h : p.Addressable ts) (name : String) : (p.remove ts name).1.Addressable ts := by
  rcases remove_cases ts p name with ⟨-, hremove⟩ | ⟨i, -, -, hremove⟩
  · rwa [hremove]
  · rw [hremove]
    refine h.of_slots rfl fun j v hslot => ?_
    rw [slot?, List.getElem?_set] at hslot
    split at hslot
    · split at hslot <;> cases hslot
    · exact hslot

theorem Addressable.clear (h : p.Addressable ts) : p.clear.Addressable ts := by
  refine h.of_slots rfl fun i v hslot => ?_
  rw [slot?, Projection.clear, List.getElem?_map] at hslot
  cases hi : p.slots[i]? with
  | none =>
    rw [hi] at hslot
    cases hslot
  | some slot =>
    rw [hi] at hslot
    cases hslot

/-- Values by position stand where their names are found iff the names that they reach are different. -/
theorem addressable_ofParts_iff {values : List Value} (h : ofParts ts t values s = .ok p) :
    p.Addressable ts ↔ ((ts.names t).take values.length).Nodup := by
  unfold ofParts at h
  split at h
  · cases h
  cases h
  have hat {i : Nat} {name : String} {v : Value} : HasAt ts ⟨t, values.map some, s⟩ i name v ↔
      (ts.names t)[i]? = some name ∧ values[i]? = some v := by
    rw [HasAt, slot?, List.getElem?_map]
    cases values[i]? <;> simp
  constructor
  · intro haddr
    rw [List.nodup_iff_getElem?_ne_getElem?]
    intro i j hij hj heq
    rw [List.length_take, Nat.lt_min] at hj
    rw [List.getElem?_take_of_lt (hij.trans hj.1), List.getElem?_take_of_lt hj.1] at heq
    have hnj := List.getElem?_eq_getElem hj.2
    have hi := haddr i _ _ (hat.2 ⟨heq.trans hnj, List.getElem?_eq_getElem (hij.trans hj.1)⟩)
    have hj := haddr j _ _ (hat.2 ⟨hnj, List.getElem?_eq_getElem hj.1⟩)
    exact hij.ne (Option.some.inj (hi.symm.trans hj))
  · intro hnodup i name v hi
    obtain ⟨hname, hv⟩ := hat.1 hi
    obtain ⟨hlt, rfl⟩ := List.getElem?_eq_some_iff.1 hname
    have hvalue : i < values.length := (List.getElem?_eq_some_iff.1 hv).1
    refine List.idxOf?_eq_some_iff.2 ⟨hlt, rfl, fun j hj heq => ?_⟩
    -- An earlier position of the name would be reached too.
    rw [List.nodup_iff_getElem?_ne_getElem?] at hnodup
    refine hnodup j i hj (by rw [List.length_take]; omega) ?_
    rw [List.getElem?_take_of_lt (hj.trans hvalue), List.getElem?_take_of_lt hvalue,
      List.getElem?_eq_getElem (hj.trans hlt), List.getElem?_eq_getElem hlt, heq]

end Projection

namespace Workspace

open NameTables Projection

variable {α : Type} {w w' : Workspace} {ts : NameTables} {p : Projection} {i j : Nat} {js : List Nat}

/-- Whether there is a projection at a place, with views that agree. -/
def AgreesAt (w : Workspace) (i : Nat) : Prop := ∃ p, w.projections[i]? = some p ∧ p.ViewsAgree w.tables

/-- Whether there is a projection at a place, with every value where its name is found. -/
def AddressableAt (w : Workspace) (i : Nat) : Prop :=
  ∃ p, w.projections[i]? = some p ∧ p.Addressable w.tables

theorem Valid.agreesAt_iff (hw : w.Valid) : w.AgreesAt i ↔ w.AddressableAt i :=
  exists_congr fun _ => and_congr_right fun hp => viewsAgree_iff (hw _ (List.mem_of_getElem? hp)).slots

theorem addressableAt_iff (hp : w.projections[i]? = some p) : w.AddressableAt i ↔ p.Addressable w.tables := by
  refine ⟨?_, fun h => ⟨p, hp, h⟩⟩
  rintro ⟨q, hq, h⟩
  cases hp.symm.trans hq
  exact h

/-! ## No step moves a value -/

/-- A projection that is kept stays as it is made while its table grows. -/
theorem AddressableAt.of_kept (h : w.AddressableAt i) (hw : w.Valid) (hts : w.tables.Extends w'.tables)
    (hkept : w'.projections[i]? = w.projections[i]?) : w'.AddressableAt i := by
  obtain ⟨p, hp, haddr⟩ := h
  have hfits := hw p (List.mem_of_getElem? hp)
  exact ⟨p, hkept.trans hp, haddr.grown hfits.slots (hts.grows hfits.has)⟩

theorem AddressableAt.of_add (h : w.AddressableAt i) (hw : w.Valid) (hts : w.tables.Extends ts) :
    (w.add ts p).2.AddressableAt i := by
  refine h.of_kept hw hts ?_
  obtain ⟨q, hq, -⟩ := h
  exact List.getElem?_append_left (List.getElem?_eq_some_iff.1 hq).1

theorem AddressableAt.of_edit {f : NameTables → Projection → α × NameTables × Projection} {a : α}
    (h : w.AddressableAt i) (hw : w.Valid) (hts : w.tables.Extends w'.tables) (hedit : w.edit j f = some (a, w'))
    (hf : ∀ p, p.Fits w.tables → p.Addressable w.tables →
      (f w.tables p).2.2.Addressable (f w.tables p).2.1) : w'.AddressableAt i := by
  obtain ⟨p, hp, -, rfl⟩ := edit_eq_some_iff.1 hedit
  by_cases hij : j = i
  · subst hij
    have hj : j < w.projections.length := (List.getElem?_eq_some_iff.1 hp).1
    refine ⟨_, List.getElem?_set_self hj, ?_⟩
    exact hf p (hw p (List.mem_of_getElem? hp)) ((addressableAt_iff hp).1 h)
  · exact h.of_kept hw hts (List.getElem?_set_ne hij)

/-- **No step moves a value away from where its name is found.** -/
theorem Step.run_addressableAt {o : Step α} {a : α} (hw : w.Valid) (hrun : o.run w = some (a, w'))
    (h : w.AddressableAt i) : w'.AddressableAt i := by
  have hts := (o.run_advances hw hrun).tables
  cases o with
  | create names =>
    rw [run] at hrun
    cases hrun
    exact h.of_kept hw hts rfl
  | onTable t strategy =>
    rw [run] at hrun
    split at hrun
    · cases hrun
      exact h.of_add hw hts
    · cases hrun
  | ofParts t values strategy =>
    rw [run] at hrun
    split at hrun
    · split at hrun
      · cases hrun
        exact h
      · cases hrun
        exact h.of_add hw hts
    · cases hrun
  | ofDocument t d strategy =>
    rw [run] at hrun
    split at hrun
    · cases hrun
      exact h.of_add hw hts
    · cases hrun
  | copy j =>
    rw [run, Option.map_eq_some_iff] at hrun
    obtain ⟨p, -, hadd⟩ := hrun
    cases hadd
    exact h.of_add hw hts
  | set j name v =>
    rw [run] at hrun
    exact h.of_edit hw hts hrun fun p hp haddr => haddr.put hp.slots hp.has _ v
  | insert j name v =>
    rw [run] at hrun
    refine h.of_edit hw hts hrun fun p hp haddr => ?_
    split
    · exact haddr
    · next hinsert => exact haddr.insert hp hinsert
  | remove j name =>
    rw [run] at hrun
    exact h.of_edit hw hts hrun fun p hp haddr => haddr.remove name
  | clear j =>
    rw [run] at hrun
    exact h.of_edit hw hts hrun fun p hp haddr => haddr.clear
  | setStrategy j strategy =>
    rw [run] at hrun
    exact h.of_edit hw hts hrun fun p hp haddr => haddr.of_slots rfl fun _ _ hslot => hslot

theorem Reaches.addressableAt (hreaches : w.Reaches js w') (hw : w.Valid) (h : w.AddressableAt i) :
    w'.AddressableAt i := by
  induction hreaches with
  | refl => exact h
  | step hearlier hrun ih => exact Step.run_addressableAt (hearlier.advances hw).valid hrun ih

/-! ## What a projection is made as -/

theorem addressableAt_add : (w.add ts p).2.AddressableAt (w.add ts p).1 ↔ p.Addressable ts :=
  addressableAt_iff List.getElem?_concat_length

theorem Step.run_onTable_addressableAt {t : TableId} {s : NamingStrategy}
    (hrun : (Step.onTable t s).run w = some (i, w')) : w'.AddressableAt i := by
  rw [run] at hrun
  split at hrun
  · cases hrun
    exact addressableAt_add.2 (addressable_onTable w.tables t s)
  · cases hrun

theorem Step.run_ofDocument_addressableAt {t : TableId} {d : Document} {s : NamingStrategy}
    (hrun : (Step.ofDocument t d s).run w = some (i, w')) : w'.AddressableAt i := by
  rw [run] at hrun
  split at hrun
  · next ht =>
    cases hrun
    exact addressableAt_add.2 (addressable_ofDocument ht d s)
  · cases hrun

theorem Step.run_ofParts_addressableAt_iff {t : TableId} {values : List Value} {s : NamingStrategy}
    (hrun : (Step.ofParts t values s).run w = some (.ok i, w')) :
    w'.AddressableAt i ↔ ((w.tables.names t).take values.length).Nodup := by
  rw [run] at hrun
  split at hrun
  · split at hrun
    · cases hrun
    · next hparts =>
      cases hrun
      exact addressableAt_add.trans (addressable_ofParts_iff hparts)
  · cases hrun

theorem Step.run_copy_addressableAt_iff (hrun : (Step.copy i).run w = some (j, w')) :
    w'.AddressableAt j ↔ w.AddressableAt i := by
  rw [run, Option.map_eq_some_iff] at hrun
  obtain ⟨p, hp, hadd⟩ := hrun
  cases hadd
  exact addressableAt_add.trans (addressableAt_iff hp).symm

/-- **The views of a projection agree iff every value stands where its name is found**, and over a table that
holds each name once they always do. In every workspace that comes from tables by steps, they agree for
a new projection and for one made of a document; for one made of values by position, iff the names that
these reach are different; for a copy, iff they do for what it is a copy of. Where they agree, they agree
after any run of steps. -/
theorem views_agree_iff (hw : w.Reachable) :
    (∀ (i : Nat) p, w.projections[i]? = some p → (p.ViewsAgree w.tables ↔ p.Addressable w.tables) ∧
      ((w.tables.names p.table).Nodup → p.ViewsAgree w.tables)) ∧
    (∀ t s i w', (Step.onTable t s).run w = some (i, w') → w'.AgreesAt i) ∧
    (∀ t d s i w', (Step.ofDocument t d s).run w = some (i, w') → w'.AgreesAt i) ∧
    (∀ t values s i w', (Step.ofParts t values s).run w = some (.ok i, w') →
      (w'.AgreesAt i ↔ ((w.tables.names t).take values.length).Nodup)) ∧
    (∀ i j w', (Step.copy i).run w = some (j, w') → (w'.AgreesAt j ↔ w.AgreesAt i)) ∧
    ∀ i js w', w.Reaches js w' → w.AgreesAt i → w'.AgreesAt i := by
  have hvalid := hw.valid
  have hafter {α : Type} {o : Step α} {a : α} {w' : Workspace} (hrun : o.run w = some (a, w')) : w'.Valid :=
    (o.run_advances hvalid hrun).valid
  refine ⟨fun i p hp => ?_, fun t s i w' hrun => ?_, fun t d s i w' hrun => ?_,
    fun t values s i w' hrun => ?_, fun i j w' hrun => ?_, fun i js w' hreaches hagrees => ?_⟩
  · have hiff := viewsAgree_iff (hvalid p (List.mem_of_getElem? hp)).slots
    exact ⟨hiff, fun hnodup => hiff.2 (addressable_of_nodup hnodup)⟩
  · exact (hafter hrun).agreesAt_iff.2 (Step.run_onTable_addressableAt hrun)
  · exact (hafter hrun).agreesAt_iff.2 (Step.run_ofDocument_addressableAt hrun)
  · exact (hafter hrun).agreesAt_iff.trans (Step.run_ofParts_addressableAt_iff hrun)
  · rw [(hafter hrun).agreesAt_iff, hvalid.agreesAt_iff]
    exact Step.run_copy_addressableAt_iff hrun
  · have hvalid' := (hreaches.advances hvalid).valid
    exact hvalid'.agreesAt_iff.2 (hreaches.addressableAt hvalid (hvalid.agreesAt_iff.1 hagrees))

/-- Over a table that holds a name twice: values for its first two names have views that agree, also after one
of them is removed; a value more, and they do not. -/
theorem views_agree_of_two_parts :
    let w : Workspace := ⟨⟨[["a", "b", "a"]]⟩, []⟩
    let w₂ : Workspace := ⟨w.tables, [⟨0, [some (.int32 1), some (.int32 2)], .verbatim⟩]⟩
    let w₃ : Workspace := ⟨w.tables, [⟨0, [some (.int32 1), some (.int32 2), some (.int32 3)], .verbatim⟩]⟩
    let removed : Workspace := ⟨w.tables, [⟨0, [none, some (.int32 2)], .verbatim⟩]⟩
    w.Reachable ∧ w₂.AgreesAt 0 ∧ removed.AgreesAt 0 ∧ ¬w₃.AgreesAt 0 := by
  intro w w₂ w₃ removed
  have hw : w.Reachable := ⟨w.tables, [], .refl⟩
  obtain ⟨-, -, -, hparts, -, -⟩ := views_agree_iff hw
  have hagrees : w₂.AgreesAt 0 := (hparts 0 [.int32 1, .int32 2] .verbatim 0 w₂ rfl).2 (by decide)
  have hw₂ : w₂.Reachable :=
    ⟨w.tables, _, Reaches.refl.step (o := .ofParts 0 [.int32 1, .int32 2] .verbatim) rfl⟩
  obtain ⟨-, -, -, -, -, hruns⟩ := views_agree_iff hw₂
  have hremoved := hruns 0 _ removed (Reaches.refl.step (o := .remove 0 "a") rfl) hagrees
  have hrepeated := (hparts 0 [.int32 1, .int32 2, .int32 3] .verbatim 0 w₃ rfl).not.2 (by decide)
  exact ⟨hw, hagrees, hremoved, hrepeated⟩

/-- Two values over a table of one name at two positions. After the name is removed there is nothing to find
under it, and it is gone through and in the document still, with the other value. -/
theorem removed_name_in_keys :
    let p : Projection := ⟨0, [none, some (.int32 2)], .verbatim⟩
    let w : Workspace := ⟨⟨[["a", "a"]]⟩, [p]⟩
    w.Reachable ∧ p.contains w.tables "a" = false ∧ p.keys w.tables = ["a"] ∧
      p.toDocument w.tables = [("a", .int32 2)] ∧ ¬p.ViewsAgree w.tables := by
  intro p w
  have hreaches : Reaches ⟨w.tables, []⟩ _ w :=
    (Reaches.refl.step (o := .ofParts 0 [.int32 1, .int32 2] .verbatim) rfl).step (o := .remove 0 "a") rfl
  have hcontains : p.contains w.tables "a" = false := by rfl
  have hkeys : p.keys w.tables = ["a"] := by rfl
  refine ⟨⟨_, _, hreaches⟩, hcontains, hkeys, by rfl, fun h => ?_⟩
  have hfound := (h.keys "a").1 (by rw [hkeys]; exact List.mem_singleton_self _)
  rw [hcontains] at hfound
  cases hfound

end Workspace
end Docbase
