/-
The discipline of identifiers. As long as a store is written by repositories of
entities alone, every document in it stands under an identifier: a string that is
not blank (`Server.HasIds`). Adding brings only such documents, as it draws an
identifier for an entity that has none; an update keeps the `_id` that is stored;
nothing else changes a document. So what is read passes the check of its state
like what has just been written: `returned_coherent`.
-/
import Docbase.Proofs.Repository.Failure
import Docbase.Proofs.Repository.RoundTrip

namespace Docbase

variable {α : Type}

/-- Whether a document stands under an identifier, a string that is not blank. -/
def Document.HasId (d : Document) : Prop :=
  ∃ id, d.get? idField = some (.string id) ∧ (Text.trim id).isEmpty = false

theorem Document.HasId.contains {d : Document} (h : d.HasId) : d.contains idField = true := by
  obtain ⟨id, hid, -⟩ := h
  rw [Fields.contains, hid, Option.isSome_some]

/-! ## Collections -/

namespace Collection

/-- Whether every document of a collection stands under an identifier. -/
def HasIds (c : Collection) : Prop := ∀ d ∈ c.documents, Document.HasId d

variable {c c' : Collection} {n : Nat}

theorem HasIds.empty : Collection.empty.HasIds := by
  intro d hd
  cases hd

theorem HasIds.sublist {ds : List Document} (h : c.HasIds) (hds : ds.Sublist c.documents) :
    HasIds { c with documents := ds } := fun d hd => h d (hds.subset hd)

theorem HasIds.insert (h : c.HasIds) {name : String} {d : Document} (hd : d.HasId)
    (hinsert : c.insert name d = .ok c') : c'.HasIds := by
  obtain ⟨_, -, rfl⟩ := map_eq_ok_iff.1 hinsert
  intro other hother
  rcases List.mem_append.1 hother with hother | hother
  · exact h other hother
  · rwa [List.mem_singleton.1 hother]

/-- What replaces a document stands under the same identifier, whatever it is. -/
theorem HasIds.replaceOne (h : c.HasIds) {name : String} {p : Predicate} {d : Document}
    (hreplace : c.replaceOne name p d = .ok (c', n)) : c'.HasIds := by
  rcases replaceOne_cases hreplace with rfl | ⟨before, stored, after, d', hdocs, hreplacement, -, rfl⟩
  · exact h
  · intro other hother
    have hkept : ∀ x ∈ before ++ stored :: after, Document.HasId x := hdocs ▸ h
    simp only [List.mem_append, List.mem_cons] at hother hkept
    rcases hother with hother | rfl | hother
    · exact hkept other (.inl hother)
    · obtain ⟨id, hid, hblank⟩ := hkept stored (.inr (.inl rfl))
      rw [replacement_eq_insert hid hreplacement]
      exact ⟨id, Fields.get?_insert_self _ _ _, hblank⟩
    · exact hkept other (.inr (.inr hother))

theorem HasIds.deleteOne (h : c.HasIds) {p : Predicate} (hdelete : c.deleteOne p = .ok (c', n)) :
    c'.HasIds := by
  obtain ⟨ds, hds, rfl⟩ := deleteOne_sublist hdelete
  exact h.sublist hds

theorem HasIds.deleteMany (h : c.HasIds) {p : Option Predicate} (hdelete : c.deleteMany p = .ok (c', n)) :
    c'.HasIds := by
  obtain ⟨ds, hds, rfl⟩ := deleteMany_sublist hdelete
  exact h.sublist hds

theorem HasIds.createIndex (h : c.HasIds) {name : String} {spec : IndexSpec}
    (hcreate : c.createIndex name spec = .ok c') : c'.HasIds := by
  rw [HasIds, createIndex_documents hcreate]
  exact h

end Collection

/-! ## Steps -/

namespace Server

/-- Whether every document of a server stands under an identifier. -/
def HasIds (s : Server) : Prop := s.store.All Collection.HasIds

theorem Reads.preserves {I : Server → Prop} {step : Step α} (h : Reads step) : Preserves I step := by
  intro s hs
  rwa [h s]

theorem preserves_insert (collection : String) {d : Document} (hd : d.HasId) :
    Preserves HasIds (insert collection d) := by
  intro s hs
  have hidentified : s.identified d = (d, s) := by rw [identified, if_pos hd.contains]
  rw [insert_eq, hidentified]
  exact change_unit_keeps hs fun _ => hs.insert .empty fun _ _ hc => hc.insert hd

theorem preserves_replaceOne (collection : String) (p : Predicate) (d : Document) :
    Preserves HasIds (replaceOne collection p d) :=
  fun _ hs => change_keeps hs fun _ _ => hs.update fun _ _ _ hc => hc.replaceOne

theorem preserves_deleteOne (collection : String) (p : Predicate) :
    Preserves HasIds (deleteOne collection p) :=
  fun _ hs => change_keeps hs fun _ _ => hs.update fun _ _ _ hc => hc.deleteOne

theorem preserves_deleteMany (collection : String) (p : Option Predicate) :
    Preserves HasIds (deleteMany collection p) :=
  fun _ hs => change_keeps hs fun _ _ => hs.update fun _ _ _ hc => hc.deleteMany

theorem preserves_createIndex (collection : String) (spec : IndexSpec) :
    Preserves HasIds (createIndex collection spec) :=
  fun _ hs => change_unit_keeps hs fun _ => hs.createIndex .empty fun _ _ hc => hc.createIndex

theorem preserves_drop (collection : String) : Preserves HasIds (drop collection) := by
  intro s hs
  refine change_keeps hs fun store a hdrop => ?_
  cases hdrop
  exact hs.drop collection

end Server

open Server Entity

theorem Binding.Request.run_preserves (b : Binding) (o : Binding.Request α) :
    Preserves HasIds (o.run b) := by
  have hindex (spec : IndexSpec) : Preserves HasIds (b.createIndex spec) :=
    b.preserves_run (preserves_andThen_check fun spec _ => preserves_createIndex b.collection spec)
  cases o with
  | stats => exact b.reads_stats.preserves
  | count => exact (b.reads_measure _).preserves
  | size => exact (b.reads_measure _).preserves
  | indexSize => exact (b.reads_measure _).preserves
  | totalSize => exact (b.reads_measure _).preserves
  | deleteAll => exact b.preserves_run (preserves_deleteMany b.collection none)
  | drop => exact b.preserves_run (preserves_drop b.collection)
  | createIndex spec => exact hindex spec
  | createIndexWith spec properties => exact hindex _
  | listIndexes => exact (b.reads_run (reads_ask _)).preserves

namespace Repository

variable {ε : Type} [Entity ε]

open Binding

/-- An entity that is added is stored under its identifier. -/
theorem preserves_add (hε : CarriesId ε) (r : Repository ε) (e : ε) : Preserves HasIds (r.add e) := by
  refine r.binding.preserves_run (preserves_andThen_check fun _ _ s hs => ?_)
  have hs' : HasIds (identified e s).2 := by rwa [HasIds, identified_store]
  refine preserves_andThen_check (fun d hencode => ?_) _ hs'
  obtain ⟨id, hid, hblank⟩ := identified_id_of_setId hε.id_setId e s
  have hd : Document.HasId d := ⟨id, hε.get?_encode hencode hid, hblank⟩
  exact preserves_andThen (preserves_insert r.binding.collection hd) fun _ _ _ _ => preserves_check _

theorem Request.run_preserves (hε : CarriesId ε) (r : Repository ε) (o : Repository.Request ε α) :
    Preserves HasIds (o.run r) := by
  cases o with
  | add e => exact preserves_add hε r e
  | update e =>
    exact r.binding.preserves_run (preserves_andThen_check fun _ _ => preserves_andThen_check fun _ _ =>
      preserves_andThen_check fun _ _ => preserves_andThen (preserves_replaceOne r.binding.collection _ _)
        fun _ _ _ _ => preserves_check _)
  | delete e =>
    exact r.binding.preserves_run (preserves_andThen_check fun _ _ => preserves_andThen_check fun _ _ =>
      preserves_andThen (preserves_deleteOne r.binding.collection _) fun _ _ _ _ => preserves_check _)
  | contains id => exact (r.reads_contains id).preserves
  | find id => exact (r.reads_find? id).preserves
  | findBy f => exact (r.reads_findBy f).preserves
  | listAll => exact r.reads_listAll.preserves
  | list p => exact (r.reads_list p).preserves
  | project q => exact (r.reads_project q).preserves

end Repository

/-! ## Runs -/

/-- The states of a server that is written by repositories of entities alone, of any types and over
any collections. A type that does not keep its identifiers as strings may be among them: what it
writes is refused. -/
inductive Server.ReachableByEntities : Server → Prop where
  | init {s : Server} (h : s.store = .empty) : ReachableByEntities s
  | entities {s : Server} (h : ReachableByEntities s) {ε β : Type} [Entity ε] (hε : CarriesId ε)
      (r : Repository ε) (o : Repository.Request ε β) : ReachableByEntities (o.run r s).2
  | shared {s : Server} (h : ReachableByEntities s) {β : Type} (b : Binding) (o : Binding.Request β) :
      ReachableByEntities (o.run b s).2
  | elsewhere {s t : Server} (h : ReachableByEntities s) (hstore : t.store = s.store) :
      ReachableByEntities t

theorem Server.ReachableByEntities.hasIds {s : Server} (h : s.ReachableByEntities) : s.HasIds := by
  induction h with
  | init h =>
    rw [Server.HasIds, h]
    exact .empty
  | entities _ hε r o ih => exact o.run_preserves hε r _ ih
  | shared _ b o ih => exact o.run_preserves b _ ih
  | elsewhere _ hstore ih => rwa [Server.HasIds, hstore]

/-! ## Entities that are returned -/

namespace Entity

variable {ε : Type} [Entity ε]

/-- Whether an entity carries an identifier that is not blank and counts as unchanged. -/
def Stored (e : ε) : Prop := hasId e = true ∧ tracker e = .unchanged

theorem Stored.ensureState {e : ε} (h : Stored e) : ensureState e = .ok () := by
  rw [Entity.ensureState, h.1, h.2]
  rfl

theorem hasId_of_id {e : ε} {id : String} (hid : Entity.id e = some id)
    (hblank : (Text.trim id).isEmpty = false) : hasId e = true := by
  unfold hasId
  rw [hid]
  simp [hblank]

theorem stored_setTracker (hε : CarriesId ε) {e : ε} {id : String} (hid : Entity.id e = some id)
    (hblank : (Text.trim id).isEmpty = false) : Stored (setTracker e .unchanged) :=
  ⟨hasId_of_id ((hε.id_setTracker e _).trans hid) hblank, hε.tracker_setTracker e _⟩

/-- A document that stands under an identifier is read as an entity that carries it. -/
theorem stored_of_ofDocument (hε : CarriesId ε) {d : Document} {e : ε} (hd : d.HasId)
    (h : ofDocument d = .ok e) : Stored e := by
  obtain ⟨id, hid, hblank⟩ := hd
  obtain ⟨read, hdecode, rfl⟩ := map_eq_ok_iff.1 h
  exact stored_setTracker hε (hε.id_decode hdecode hid) hblank

end Entity

namespace Repository

variable {ε : Type} [Entity ε] {r : Repository ε} {s t : Server}

open Binding

/-- What a request that succeeds hands back as stored. Deleting hands back what it was given. -/
def Request.returned : Repository.Request ε α → α → List ε
  | .add _, e => [e]
  | .update _, e => [e]
  | .delete _, _ => []
  | .contains _, _ => []
  | .find _, found => found.toList
  | .findBy _, es => es
  | .listAll, es => es
  | .list _, es => es
  | .project _, _ => []

theorem stored_of_decodeAll (hε : CarriesId ε) {ds : List Document} {es : List ε}
    (hds : ∀ d ∈ ds, Document.HasId d) (h : decodeAll ds = .ok es) : ∀ e ∈ es, Stored e := by
  have hread := mapM_eq_ok_iff.1 h
  clear h
  induction hread with
  | nil => simp
  | cons hd _ ih =>
    obtain ⟨hfirst, hrest⟩ := List.forall_mem_cons.1 hds
    exact List.forall_mem_cons.2 ⟨stored_of_ofDocument hε hfirst hd, ih hrest⟩

/-- Whole documents that are found stand under identifiers. -/
theorem hasId_of_find {name : String} {q : Query} {ds : List Document} (hs : s.HasIds)
    (hselection : q.selection = []) (h : Server.find name q s = (.ok ds, t)) :
    ∀ d ∈ ds, Document.HasId d := by
  have hfind : s.store.find name q = .ok ds := congrArg Prod.fst h
  rw [Store.find_eq] at hfind
  exact fun d hd => hs.collection .empty name d (Collection.find_subset hselection hfind hd)

omit [Entity ε] in
theorem hasId_of_findBy {f : Filter} {ds : List Document} (hs : s.HasIds)
    (h : r.binding.findBy f s = (.ok ds, t)) : ∀ d ∈ ds, Document.HasId d := by
  unfold Binding.findBy at h
  cases hp : f.predicate with
  | none =>
    rw [hp] at h
    obtain ⟨-, h⟩ := run_eq_ok_iff.1 h
    cases h
    simp
  | some p =>
    rw [hp] at h
    obtain ⟨-, h⟩ := run_eq_ok_iff.1 h
    exact hasId_of_find hs rfl h

theorem add_stored (hε : CarriesId ε) {e e' : ε} (h : r.add e s = (.ok e', t)) : Stored e' := by
  obtain ⟨-, -, rfl, -⟩ := add_ok h
  obtain ⟨id, hid, hblank⟩ := identified_id_of_setId hε.id_setId e s
  exact stored_setTracker hε hid hblank

theorem update_stored (hε : CarriesId ε) {e e' : ε} (h : r.update e s = (.ok e', t)) : Stored e' := by
  obtain ⟨hblank, rfl, -⟩ := update_ok h
  exact stored_setTracker hε (id_of_not_blank hblank) hblank

theorem find?_stored (hε : CarriesId ε) (hs : s.HasIds) {id : String} {found : Option ε}
    (h : r.find? id s = (.ok found, t)) : ∀ e ∈ found.toList, Stored e := by
  obtain ⟨-, h⟩ := run_eq_ok_iff.1 h
  obtain ⟨p, -, h⟩ := andThen_check_eq_ok_iff.1 h
  obtain ⟨ds, u, hfind, h⟩ := andThen_eq_ok_iff.1 h
  have hds := hasId_of_find hs rfl hfind
  cases ds with
  | nil =>
    obtain ⟨heq, -⟩ := check_eq_ok_iff.1 h
    cases heq
    simp
  | cons d ds =>
    obtain ⟨hread, -⟩ := check_eq_ok_iff.1 h
    obtain ⟨e, he, rfl⟩ := map_eq_ok_iff.1 hread
    have hstored : Stored e := stored_of_ofDocument hε (hds d List.mem_cons_self) he
    simpa using hstored

/-- What a request hands back as stored is, in a store in which every document stands under an
identifier. -/
theorem Request.returned_stored (hε : CarriesId ε) (hs : s.HasIds) (o : Repository.Request ε α) {a : α}
    (h : o.run r s = (.ok a, t)) : ∀ e ∈ o.returned a, Stored e := by
  cases o with
  | add e => exact List.forall_mem_singleton.2 (add_stored hε h)
  | update e => exact List.forall_mem_singleton.2 (update_stored hε h)
  | find id => exact find?_stored hε hs h
  | findBy f =>
    obtain ⟨ds, u, hfind, h⟩ := andThen_eq_ok_iff.1 h
    exact stored_of_decodeAll hε (hasId_of_findBy hs hfind) (check_eq_ok_iff.1 h).1
  | listAll =>
    obtain ⟨ds, u, hfind, h⟩ := andThen_eq_ok_iff.1 h
    obtain ⟨-, hfind⟩ := run_eq_ok_iff.1 hfind
    exact stored_of_decodeAll hε (hasId_of_find hs rfl hfind) (check_eq_ok_iff.1 h).1
  | list p =>
    obtain ⟨ds, u, hfind, h⟩ := andThen_eq_ok_iff.1 h
    obtain ⟨-, hfind⟩ := run_eq_ok_iff.1 hfind
    exact stored_of_decodeAll hε (hasId_of_find hs rfl hfind) (check_eq_ok_iff.1 h).1
  | delete e => simp [returned]
  | contains id => simp [returned]
  | project q => simp [returned]

/-- **Every entity that is returned passes the check of its state**: it carries an identifier that is
not blank, and counts as unchanged. It does so whatever was done to the store before, as long as that
was done by repositories of entities. -/
theorem returned_coherent (hs : s.ReachableByEntities) (hε : CarriesId ε) {o : Repository.Request ε α}
    {a : α} (h : o.run r s = (.ok a, t)) :
    ∀ e ∈ o.returned a, hasId e = true ∧ tracker e = .unchanged ∧ Entity.ensureState e = .ok () := by
  intro e he
  have hstored : Stored e := o.returned_stored hε hs.hasIds h e he
  exact ⟨hstored.1, hstored.2, hstored.ensureState⟩

/-- A slot whose identifier is blank and which counts as deleted is added, and listed. -/
theorem returned_coherent_of_blank_slot :
    let s := ((Repository.Request.add (⟨some " ", .deleted, "a"⟩ : Slot)).run slots .empty).2
    let e : Slot := ⟨some (Server.identifier 1), .unchanged, "a"⟩
    s.ReachableByEntities ∧ CarriesId Slot ∧ (Repository.Request.listAll.run slots s).1 = .ok [e] ∧
      hasId e = true ∧ tracker e = .unchanged ∧ Entity.ensureState e = .ok () := by
  intro s e
  have hs : s.ReachableByEntities := .entities (.init rfl) Slot.carriesId slots _
  have hlist : (Repository.Request.listAll.run slots s).1 = .ok [e] := by rfl
  have hcoherent := returned_coherent (r := slots) (o := .listAll) hs Slot.carriesId (Prod.ext hlist rfl)
  exact ⟨hs, Slot.carriesId, hlist, hcoherent e (List.mem_singleton_self e)⟩

end Repository
end Docbase
