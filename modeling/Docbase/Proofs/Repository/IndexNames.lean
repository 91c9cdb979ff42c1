/-
The names of the indexes of a collection. Creating an index drops the one of its name first, and no other call but
dropping the collection touches its indexes (`Call.run_indexes`). So of the indexes that have been created, no two
have one name, and each comes from a call that created it (`Reached.indexes`). What is listed starts with the index on
`_id`, which is not one of them: its name is not looked at when another is created, and stands in the list
a second time if that has it (`index_names`).
-/
import Docbase.Proofs.Repository.Entities

namespace Docbase

/-! ## Descriptions -/

/-- The name of the index on `_id`, which every collection has. -/
def idIndexName : String := "_id_"

/-- The name that an index is listed under. -/
def listedName? (d : Document) : Option String :=
  match d.get? "name" with
  | some (.string name) => some name
  | _ => none

theorem listedName?_idIndexDescription : listedName? idIndexDescription = some idIndexName := by rfl

theorem listedName?_describe (spec : IndexSpec) : listedName? spec.describe = some spec.name := by rfl

/-! ## Indexes of a store -/

namespace Store

variable {s t : Store} {name other : String}

/-- The indexes of a collection; a collection that does not exist has none. -/
def indexes (s : Store) (name : String) : List IndexSpec := (s.collection name).indexes

theorem indexes_put (s : Store) (name other : String) (c : Collection) :
    (s.put name c).indexes other = if other = name then c.indexes else s.indexes other := by
  unfold indexes collection get? put
  split
  · next h => rw [h, Fields.get?_insert_self, Option.getD_some]
  · next h => rw [Fields.get?_insert_of_ne _ _ h]

theorem indexes_drop (s : Store) (name other : String) :
    (s.drop name).indexes other = if other = name then [] else s.indexes other := by
  unfold indexes collection get? drop
  split
  · next h =>
    rw [h, Fields.get?_erase_self]
    rfl
  · next h => rw [Fields.get?_erase_of_ne _ h]

/-- A collection that has kept its indexes leaves those of all collections alone. -/
theorem indexes_put_of_eq {c : Collection} (h : c.indexes = s.indexes name) :
    (s.put name c).indexes other = s.indexes other := by
  rw [indexes_put]
  split
  · next hother => rw [h, hother]
  · rfl

theorem indexes_insert {d : Document} (h : s.insert name d = .ok t) : t.indexes other = s.indexes other := by
  obtain ⟨c, hc, rfl⟩ := map_eq_ok_iff.1 h
  obtain ⟨-, rfl⟩ := Collection.insert_eq_ok_iff.1 hc
  exact indexes_put_of_eq rfl

theorem indexes_update {change : Collection → Result (Collection × Nat)} {n : Nat}
    (hchange : ∀ c c' n, change c = .ok (c', n) → c'.indexes = c.indexes)
    (hupdate : s.update name change = .ok (t, n)) : t.indexes other = s.indexes other := by
  unfold update at hupdate
  split at hupdate
  · cases hupdate
    rfl
  · next c hget =>
    obtain ⟨⟨c', _⟩, hc, heq⟩ := map_eq_ok_iff.1 hupdate
    cases heq
    refine indexes_put_of_eq ?_
    rw [hchange c c' _ hc, indexes, collection, hget, Option.getD_some]

theorem indexes_createIndex {spec : IndexSpec} (h : s.createIndex name spec = .ok t) : t.indexes other =
    if other = name then (s.indexes name).filter (fun index => index.name ≠ spec.name) ++ [spec]
    else s.indexes other := by
  obtain ⟨c, hc, rfl⟩ := map_eq_ok_iff.1 h
  obtain ⟨-, -, rfl⟩ := Collection.createIndex_eq_ok_iff.1 hc
  exact indexes_put _ _ _ _

theorem listIndexes_eq {c : Collection} (hc : s.get? name = some c) :
    s.listIndexes name = idIndexDescription :: (s.indexes name).map IndexSpec.describe := by
  simp only [listIndexes, hc, Collection.listIndexes, indexes, collection, Option.getD_some]

theorem listedNames_eq {c : Collection} (hc : s.get? name = some c) :
    (s.listIndexes name).map listedName? = (idIndexName :: (s.indexes name).map IndexSpec.name).map some := by
  simp [listIndexes_eq hc, listedName?_idIndexDescription, listedName?_describe, Function.comp_def]

end Store

namespace Server

variable {s t : Server} {name : String} {calls : List Call}

/-! ## Calls -/

/-- A change of the store that leaves the indexes of a collection alone is a step that does. -/
theorem change_indexes {α : Type} {f : Store → Result (Store × α)}
    (hf : ∀ store a, f s.store = .ok (store, a) → store.indexes name = s.store.indexes name) :
    (change f s).2.store.indexes name = s.store.indexes name :=
  change_keeps (I := fun store => store.indexes name = s.store.indexes name) rfl hf

theorem insert_indexes (collection : String) (d : Document) (s : Server) (name : String) :
    (insert collection d s).2.store.indexes name = s.store.indexes name := by
  rw [insert_eq, ← identified_store s d]
  refine change_indexes fun store _ h => ?_
  obtain ⟨store', hinsert, heq⟩ := map_eq_ok_iff.1 h
  cases heq
  exact Store.indexes_insert hinsert

theorem createIndex_indexes (collection : String) (spec : IndexSpec) (s : Server) (name : String) :
    (createIndex collection spec s).2.store.indexes name = s.store.indexes name ∨ name = collection ∧
      (createIndex collection spec s).2.store.indexes name =
        (s.store.indexes name).filter (fun index => index.name ≠ spec.name) ++ [spec] := by
  cases hcreate : s.store.createIndex collection spec with
  | error e =>
    refine .inl ?_
    rw [createIndex, change, hcreate]
    rfl
  | ok store =>
    have hstore : (createIndex collection spec s).2.store = store := by
      rw [createIndex, change, hcreate]
      rfl
    rw [hstore, Store.indexes_createIndex hcreate]
    split
    · next h => exact .inr ⟨h, by rw [h]⟩
    · exact .inl rfl

/-- What a call does to the indexes of a collection: nothing, or it drops them with the collection, or it creates one
in place of those of its name. -/
theorem Call.run_indexes (s : Server) (call : Call) (name : String) :
    (call.run s).store.indexes name = s.store.indexes name ∨ (call.run s).store.indexes name = [] ∨
      ∃ spec, call = .createIndex name spec ∧ (call.run s).store.indexes name =
        (s.store.indexes name).filter (fun index => index.name ≠ spec.name) ++ [spec] := by
  cases call with
  | insert collection d => exact .inl (insert_indexes collection d.1 s name)
  | replaceOne collection p d =>
    rw [Call.run, Server.replaceOne]
    refine .inl (change_indexes fun store n => Store.indexes_update fun c c' n hreplace => ?_)
    rcases Collection.replaceOne_cases hreplace with rfl | ⟨_, _, _, _, _, _, _, rfl⟩ <;> rfl
  | deleteOne collection p =>
    rw [Call.run, Server.deleteOne]
    refine .inl (change_indexes fun store n => Store.indexes_update fun c c' n hdelete => ?_)
    obtain ⟨_, -, rfl⟩ := Collection.deleteOne_sublist hdelete
    rfl
  | deleteMany collection p =>
    rw [Call.run, Server.deleteMany]
    refine .inl (change_indexes fun store n => Store.indexes_update fun c c' n hdelete => ?_)
    obtain ⟨_, -, rfl⟩ := Collection.deleteMany_sublist hdelete
    rfl
  | createIndex collection spec =>
    rcases createIndex_indexes collection spec s name with h | ⟨rfl, h⟩
    · exact .inl h
    · exact .inr (.inr ⟨spec, rfl, h⟩)
  | drop collection =>
    have hdrop : (Call.run s (.drop collection)).store.indexes name =
        if name = collection then [] else s.store.indexes name := Store.indexes_drop _ _ _
    rw [hdrop]
    split
    · exact .inr (.inl rfl)
    · exact .inl rfl

/-- States of a server with the calls that led to them. -/
inductive Reached : List Call → Server → Prop where
  | init {s : Server} (h : s.store = .empty) : Reached [] s
  | call {calls : List Call} {s : Server} (h : Reached calls s) (call : Call) : Reached (calls ++ [call]) (call.run s)
  | elsewhere {calls : List Call} {s t : Server} (h : Reached calls s) (hstore : t.store = s.store) : Reached calls t

theorem reachable_iff_reached : s.Reachable ↔ ∃ calls, Reached calls s := by
  constructor
  · intro h
    induction h with
    | init h => exact ⟨[], .init h⟩
    | call _ call ih =>
      obtain ⟨calls, h⟩ := ih
      exact ⟨_, h.call call⟩
    | elsewhere _ hstore ih =>
      obtain ⟨calls, h⟩ := ih
      exact ⟨calls, h.elsewhere hstore⟩
  · rintro ⟨calls, h⟩
    induction h with
    | init h => exact .init h
    | call _ call ih => exact ih.call call
    | elsewhere _ hstore ih => exact ih.elsewhere hstore

theorem nodup_names_create {indexes : List IndexSpec} (h : (indexes.map IndexSpec.name).Nodup) (spec : IndexSpec) :
    ((indexes.filter (fun index => index.name ≠ spec.name) ++ [spec]).map IndexSpec.name).Nodup := by
  rw [List.map_append, List.map_singleton, List.nodup_append]
  refine ⟨h.sublist (List.filter_sublist.map _), List.nodup_singleton _, fun a ha b hb => ?_⟩
  obtain ⟨index, hindex, rfl⟩ := List.mem_map.1 ha
  rw [List.mem_singleton.1 hb]
  simpa using (List.mem_filter.1 hindex).2

/-- No two indexes of a collection have one name, and each was created by a call. -/
theorem Reached.indexes (h : Reached calls s) (name : String) :
    ((s.store.indexes name).map IndexSpec.name).Nodup ∧
      ∀ spec ∈ s.store.indexes name, Call.createIndex name spec ∈ calls := by
  induction h with
  | init h =>
    have hnone : Store.empty.indexes name = [] := rfl
    rw [h, hnone]
    exact ⟨List.nodup_nil, List.forall_mem_nil _⟩
  | @call calls s h call ih =>
    obtain ⟨hnames, hcreated⟩ := ih
    have hcreated' : ∀ spec ∈ s.store.indexes name, Call.createIndex name spec ∈ calls ++ [call] :=
      fun spec hspec => List.mem_append_left _ (hcreated spec hspec)
    rcases call.run_indexes s name with hsame | hnone | ⟨spec, hcall, hcreate⟩
    · rw [hsame]
      exact ⟨hnames, hcreated'⟩
    · rw [hnone]
      exact ⟨List.nodup_nil, List.forall_mem_nil _⟩
    · rw [hcreate]
      refine ⟨nodup_names_create hnames spec, fun index hindex => ?_⟩
      rcases List.mem_append.1 hindex with hkept | hnew
      · exact hcreated' index (List.mem_filter.1 hkept).1
      · rw [List.mem_singleton.1 hnew, hcall]
        exact List.mem_append_right _ (List.mem_singleton_self _)
  | elsewhere _ hstore ih =>
    rw [hstore]
    exact ih

theorem Reached.run {calls : List Call} (h : Reached calls s) (more : List Call) :
    Reached (calls ++ more) (more.foldl Call.run s) := by
  induction more generalizing calls s with
  | nil =>
    rw [List.append_nil]
    exact h
  | cons call more ih =>
    rw [List.append_cons]
    exact ih (h.call call)

/-! ## What is listed -/

/-- Creating an index lists it behind those that were created under other names. -/
theorem listIndexes_createIndex {b : Binding} {spec : IndexSpec} (h : b.createIndex spec s = (.ok (), t)) :
    ∃ created, spec.validate = .ok created ∧ t.store.listIndexes b.collection = idIndexDescription ::
      ((s.store.indexes b.collection).filter (fun index => index.name ≠ created.name) ++ [created]).map
        IndexSpec.describe := by
  obtain ⟨-, h⟩ := Binding.run_eq_ok_iff.1 h
  obtain ⟨created, hvalid, h⟩ := Binding.andThen_check_eq_ok_iff.1 h
  obtain ⟨store, hstore, rfl⟩ := change_eq_ok_iff.1 h
  obtain ⟨store', hcreate, heq⟩ := map_eq_ok_iff.1 hstore
  cases heq
  refine ⟨created, hvalid, ?_⟩
  have hexists : (store.get? b.collection).isSome = true := by
    obtain ⟨c, -, rfl⟩ := map_eq_ok_iff.1 hcreate
    exact Fields.contains_insert_self _ _ _
  obtain ⟨c, hc⟩ := Option.isSome_iff_exists.1 hexists
  rw [Store.listIndexes_eq hc, Store.indexes_createIndex hcreate, if_pos rfl]

/-- The descriptions that are listed under other names than one are those of the indexes that have other names, and
that of the index on `_id` unless this is its name. -/
theorem filter_listIndexes {c : Collection} (hc : s.store.get? name = some c) (other : String) :
    (s.store.listIndexes name).filter (fun d => listedName? d ≠ some other) =
      (if other = idIndexName then [] else [idIndexDescription]) ++
        ((s.store.indexes name).filter fun index => index.name ≠ other).map IndexSpec.describe := by
  have hindexes : ((s.store.indexes name).map IndexSpec.describe).filter (fun d => listedName? d ≠ some other) =
      ((s.store.indexes name).filter fun index => index.name ≠ other).map IndexSpec.describe := by
    rw [List.filter_map]
    congr 2
    funext index
    simp [listedName?_describe]
  rw [Store.listIndexes_eq hc, List.filter_cons, hindexes, listedName?_idIndexDescription]
  by_cases hother : other = idIndexName
  · simp [hother]
  · simp [hother, Ne.symm hother]

/-- **Index names identify the indexes that have been created.** In every state, those of a collection have different
names, and each comes from a call that created it. What is listed has their names behind that of the index on `_id`,
so all names are different iff no index was created under this one. Creating an index puts it behind those that were
created under other names; this is the list that there was, with the new description instead of those of its name, iff
it does not have the name of the index on `_id`. -/
theorem index_names (hs : Reached calls s) {c : Collection} (hc : s.store.get? name = some c) :
    let listed := s.store.listIndexes name
    let names := (s.store.indexes name).map IndexSpec.name
    listed.map listedName? = (idIndexName :: names).map some ∧ names.Nodup ∧
    (∀ spec ∈ s.store.indexes name, Call.createIndex name spec ∈ calls) ∧
    ((listed.map listedName?).Nodup ↔ idIndexName ∉ names) ∧
    ∀ (b : Binding) spec t, b.collection = name → b.createIndex spec s = (.ok (), t) →
      ∃ created, spec.validate = .ok created ∧
        t.store.listIndexes name = idIndexDescription ::
          ((s.store.indexes name).filter (fun index => index.name ≠ created.name) ++ [created]).map IndexSpec.describe ∧
        (t.store.listIndexes name = listed.filter (fun d => listedName? d ≠ some created.name) ++ [created.describe] ↔
          created.name ≠ idIndexName) := by
  intro listed names
  obtain ⟨hnodup, hcreated⟩ := hs.indexes name
  have hnames : listed.map listedName? = (idIndexName :: names).map some := Store.listedNames_eq hc
  refine ⟨hnames, hnodup, hcreated, ?_, ?_⟩
  · rw [hnames, List.nodup_map_iff (Option.some_injective _), List.nodup_cons]
    exact and_iff_left hnodup
  · rintro b spec t rfl hcreate
    obtain ⟨created, hvalid, hlisted⟩ := listIndexes_createIndex hcreate
    refine ⟨created, hvalid, hlisted, ?_⟩
    rw [hlisted, filter_listIndexes hc, List.map_append]
    constructor
    · intro heq hid
      simp [hid] at heq
    · intro hid
      simp [hid]

/-- Over two documents with one value, a unique index is refused in place of another, and a second text index is
refused. Then the first index is created anew, under a name with blanks around it. -/
theorem index_names_after_refusals :
    let calls : List Call :=
      [.insert "notes" ⟨[("_id", .int32 1), ("a", .int32 1)], by decide⟩,
        .insert "notes" ⟨[("_id", .int32 2), ("a", .int32 1)], by decide⟩,
        .createIndex "notes" ⟨"byA", [⟨"a", .ascending⟩], false, .standard⟩,
        .createIndex "notes" ⟨"words", [⟨"b", .text⟩], false, .standard⟩,
        .createIndex "notes" ⟨"byA", [⟨"a", .ascending⟩], true, .standard⟩,
        .createIndex "notes" ⟨"more", [⟨"c", .text⟩], false, .standard⟩]
    let s := calls.foldl Call.run .empty
    let b : Binding := ⟨"notes", "Repository<Note>", true⟩
    let spec : IndexSpec := ⟨" byA ", [⟨"a", .descending⟩], false, .standard⟩
    let listed := s.store.listIndexes "notes"
    Reached calls s ∧ listed.map listedName? = [some "_id_", some "byA", some "words"] ∧
      (listed.map listedName?).Nodup ∧ ∃ t, b.createIndex spec s = (.ok (), t) ∧
        t.store.listIndexes "notes" = listed.filter (fun d => listedName? d ≠ some "byA") ++
          [IndexSpec.describe ⟨"byA", [⟨"a", .descending⟩], false, .standard⟩] := by
  intro calls s b spec listed
  have hs : Reached calls s := (Reached.init rfl).run calls
  have hexists : (s.store.get? "notes").isSome = true := by decide
  obtain ⟨c, hc⟩ := Option.isSome_iff_exists.1 hexists
  obtain ⟨-, -, -, hnodup, hcreation⟩ := index_names hs hc
  have hok : (b.createIndex spec s).1 = .ok () := by decide +kernel
  have hcreate : b.createIndex spec s = (.ok (), (b.createIndex spec s).2) := by rw [← hok]
  obtain ⟨created, hvalid, -, hreplaced⟩ := hcreation b spec _ rfl hcreate
  have hvalidate : spec.validate = .ok ⟨"byA", [⟨"a", .descending⟩], false, .standard⟩ := by decide +kernel
  cases hvalidate.symm.trans hvalid
  exact ⟨hs, by decide +kernel, hnodup.2 (by decide +kernel), _, hcreate, hreplaced.2 (by decide)⟩

/-- An index that is created under the name of the index on `_id` is listed beside it. -/
theorem index_names_repeat_id :
    let b : Binding := ⟨"notes", "Repository<Note>", true⟩
    let spec : IndexSpec := ⟨"_id_", [⟨"a", .ascending⟩], false, .standard⟩
    let t := (b.createIndex spec .empty).2
    (b.createIndex spec .empty).1 = .ok () ∧ t.Reachable ∧
      t.store.listIndexes "notes" = [idIndexDescription, spec.describe] ∧
      (t.store.listIndexes "notes").map listedName? = [some "_id_", some "_id_"] := by
  intro b spec t
  have hok : (b.createIndex spec .empty).1 = .ok () := by decide +kernel
  have hcreate : b.createIndex spec .empty = (.ok (), t) := by rw [← hok]
  obtain ⟨created, hvalid, hlisted⟩ := listIndexes_createIndex hcreate
  have hvalidate : spec.validate = .ok spec := by decide +kernel
  cases hvalidate.symm.trans hvalid
  have hlisted : t.store.listIndexes "notes" = [idIndexDescription, spec.describe] := hlisted
  exact ⟨hok, b.keeps_createIndex spec _ (Reachable.init rfl), hlisted, by rw [hlisted]; rfl⟩

end Server
end Docbase
