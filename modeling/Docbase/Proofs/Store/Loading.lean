/-
Loading a collection before or after an index is created on it. An index that is created over documents
checks them against each other; one that is there checks each new document against the stored ones. Both
refuse the same documents, and leave the same collection (`Collection.load_createIndex_iff`), so it makes no
difference to a server which comes first, nor in which order the documents are sent (`Server.load_index_iff`).
-/
import Docbase.Proofs.Store.InPlace

namespace Docbase

namespace Collection

variable {c c' : Collection} {name : String} {spec : IndexSpec} {ds : List Document}

theorem filter_of_new (hnew : ∀ other ∈ c.indexes, other.name ≠ spec.name) :
    (c.indexes.filter fun other => other.name ≠ spec.name) = c.indexes :=
  List.filter_eq_self.2 fun other hother => decide_eq_true (hnew other hother)

/-- What a collection without documents takes in: documents that do not collide, in the new index either. -/
def Admits (c : Collection) (spec : IndexSpec) (ds : List Document) : Prop :=
  (spec.isText = true → ∀ other ∈ c.indexes, other.isText = true → other.name = spec.name) ∧
    ds.Pairwise fun a b => collides (c.indexes ++ [spec]) b a = false

theorem pairwise_concat_iff {indexes : List IndexSpec} :
    (ds.Pairwise fun a b => collides (indexes ++ [spec]) b a = false) ↔
      (ds.Pairwise fun a b => collides indexes b a = false) ∧
        (spec.isUnique = true → ds.Pairwise fun a b => collides [spec] b a = false) := by
  simp only [collides_concat_eq_false_iff, List.pairwise_and_iff]
  by_cases hunique : spec.isUnique = true
  · simp [hunique]
  · simp [hunique, List.pairwise_of_forall]

/-- Loaded first, then indexed. -/
theorem load_createIndex_iff (hempty : c.documents = []) (hnew : ∀ other ∈ c.indexes, other.name ≠ spec.name) :
    (∃ loaded, c.load name ds = .ok loaded ∧ loaded.createIndex name spec = .ok c') ↔
      c.Admits spec ds ∧ c' = ⟨ds, c.indexes ++ [spec]⟩ := by
  rw [Admits, pairwise_concat_iff]
  constructor
  · rintro ⟨loaded, hload, hcreate⟩
    obtain ⟨-, hapart, rfl⟩ := load_eq_ok_iff.1 hload
    obtain ⟨htext, hunique, rfl⟩ := createIndex_eq_ok_iff.1 hcreate
    rw [hempty, List.nil_append] at hunique
    exact ⟨⟨htext, hapart, hunique⟩, by rw [filter_of_new hnew, hempty, List.nil_append]⟩
  · rintro ⟨⟨htext, hapart, hunique⟩, rfl⟩
    refine ⟨⟨ds, c.indexes⟩, load_eq_ok_iff.2 ⟨?_, hapart, ?_⟩, createIndex_eq_ok_iff.2 ⟨htext, hunique, ?_⟩⟩
    · simp [hempty]
    · rw [hempty, List.nil_append]
    · rw [filter_of_new hnew]

/-- Indexed first, then loaded. -/
theorem createIndex_load_iff (hempty : c.documents = []) (hnew : ∀ other ∈ c.indexes, other.name ≠ spec.name) :
    (∃ indexed, c.createIndex name spec = .ok indexed ∧ indexed.load name ds = .ok c') ↔
      c.Admits spec ds ∧ c' = ⟨ds, c.indexes ++ [spec]⟩ := by
  constructor
  · rintro ⟨indexed, hcreate, hload⟩
    obtain ⟨htext, -, rfl⟩ := createIndex_eq_ok_iff.1 hcreate
    obtain ⟨-, hapart, rfl⟩ := load_eq_ok_iff.1 hload
    rw [filter_of_new hnew] at hapart ⊢
    exact ⟨⟨htext, hapart⟩, by rw [hempty, List.nil_append]⟩
  · rintro ⟨⟨htext, hapart⟩, rfl⟩
    refine ⟨⟨[], c.indexes ++ [spec]⟩, createIndex_eq_ok_iff.2 ⟨htext, ?_, ?_⟩, load_eq_ok_iff.2 ⟨?_, hapart, ?_⟩⟩
    · simp [hempty]
    · rw [filter_of_new hnew, hempty]
    · simp
    · rfl

end Collection

namespace Server

variable {s t : Server} {name : String} {spec : IndexSpec}

/-- Steps one after the other, up to the first that fails. -/
def inOrder : List (Step Unit) → Step Unit
  | [], s => (.ok (), s)
  | step :: steps, s =>
    match step s with
    | (.error e, s) => (.error e, s)
    | (.ok _, s) => inOrder steps s

/-- The server with a collection in place of the one of its name. -/
def withCollection (s : Server) (name : String) (c : Collection) : Server := { s with store := s.store.put name c }

/-- A step that changes one collection. -/
def onCollection (name : String) (f : Collection → Result Collection) : Step Unit :=
  change fun store => ((f (store.collection name)).map (store.put name)).map fun store => (store, ())

theorem insert_eq_onCollection {d : Document} (hd : Fields.contains d idField = true) :
    insert name d = onCollection name fun c => c.insert name d := by
  funext s
  rw [insert_eq, identified, if_pos hd]
  rfl

theorem inOrder_cons_eq_ok_iff {step : Step Unit} {steps : List (Step Unit)} :
    inOrder (step :: steps) s = (.ok (), t) ↔ ∃ u, step s = (.ok (), u) ∧ inOrder steps u = (.ok (), t) := by
  rw [inOrder]
  split
  · next heq => simp [heq]
  · next heq => simp [heq]

theorem onCollection_eq_ok_iff {f : Collection → Result Collection} : onCollection name f s = (.ok (), t) ↔
    ∃ c, f (s.store.collection name) = .ok c ∧ t = s.withCollection name c := by
  rw [onCollection, change_eq_ok_iff]
  constructor
  · rintro ⟨store, hstore, rfl⟩
    obtain ⟨store', hstore', heq⟩ := map_eq_ok_iff.1 hstore
    cases heq
    obtain ⟨c, hc, rfl⟩ := map_eq_ok_iff.1 hstore'
    exact ⟨c, hc, rfl⟩
  · rintro ⟨c, hc, rfl⟩
    exact ⟨s.store.put name c, by rw [hc, ok_map, ok_map], rfl⟩

theorem collection_withCollection (s : Server) (name : String) (c : Collection) :
    (s.withCollection name c).store.collection name = c := by
  rw [withCollection, Store.collection, Store.get?, Store.put, Fields.get?_insert_self, Option.getD_some]

theorem withCollection_withCollection (s : Server) (name : String) (c c' : Collection) :
    (s.withCollection name c).withCollection name c' = s.withCollection name c' := by
  simp only [withCollection, Store.put_put]

/-- Changes of a collection that has been put into place; there may be none. -/
theorem inOrder_withCollection_iff {fs : List (Collection → Result Collection)} {c : Collection} :
    inOrder (fs.map (onCollection name)) (s.withCollection name c) = (.ok (), t) ↔
      ∃ c', fs.foldlM (fun c f => f c) c = .ok c' ∧ t = s.withCollection name c' := by
  induction fs generalizing c with
  | nil =>
    constructor
    · intro h
      cases h
      exact ⟨c, rfl, rfl⟩
    · rintro ⟨c', hc', rfl⟩
      cases hc'
      rfl
  | cons f fs ih =>
    rw [List.map_cons, inOrder_cons_eq_ok_iff]
    simp only [onCollection_eq_ok_iff, collection_withCollection, withCollection_withCollection, List.foldlM_cons,
      bind_eq_ok_iff]
    constructor
    · rintro ⟨_, ⟨d, hd, rfl⟩, hrest⟩
      obtain ⟨c', hc', ht⟩ := ih.1 hrest
      exact ⟨c', ⟨d, hd, hc'⟩, ht⟩
    · rintro ⟨c', ⟨d, hd, hc'⟩, ht⟩
      exact ⟨_, ⟨d, hd, rfl⟩, ih.2 ⟨c', hc', ht⟩⟩

/-- Changes of one collection, of which there is at least one, put what they make of it into its place. -/
theorem inOrder_onCollection_iff {fs : List (Collection → Result Collection)} (hfs : fs ≠ []) :
    inOrder (fs.map (onCollection name)) s = (.ok (), t) ↔
      ∃ c, fs.foldlM (fun c f => f c) (s.store.collection name) = .ok c ∧ t = s.withCollection name c := by
  cases fs with
  | nil => exact absurd rfl hfs
  | cons f fs =>
    rw [List.map_cons, inOrder_cons_eq_ok_iff]
    simp only [onCollection_eq_ok_iff, List.foldlM_cons, bind_eq_ok_iff]
    constructor
    · rintro ⟨_, ⟨d, hd, rfl⟩, hrest⟩
      obtain ⟨c, hc, ht⟩ := inOrder_withCollection_iff.1 hrest
      exact ⟨c, ⟨d, hd, hc⟩, ht⟩
    · rintro ⟨c, ⟨d, hd, hc⟩, ht⟩
      exact ⟨_, ⟨d, hd, rfl⟩, inOrder_withCollection_iff.2 ⟨c, hc, ht⟩⟩

/-- Documents sent one after the other, and then an index created. -/
def loadThenIndex (name : String) (spec : IndexSpec) (ds : List Sent) : Step Unit :=
  inOrder (ds.map (fun d => insert name d.1) ++ [createIndex name spec])

/-- An index created, and then documents sent one after the other. -/
def indexThenLoad (name : String) (spec : IndexSpec) (ds : List Sent) : Step Unit :=
  inOrder (createIndex name spec :: ds.map fun d => insert name d.1)

variable {ds es : List Sent}

/-- The insertion of documents, as changes of their collection. -/
def insertions (name : String) (ds : List Sent) : List (Collection → Result Collection) :=
  ds.map fun d c => c.insert name d.1

theorem map_insert_eq (hids : ∀ d ∈ ds, Fields.contains d.1 idField = true) :
    ds.map (fun d => insert name d.1) = (insertions name ds).map (onCollection name) := by
  rw [insertions, List.map_map]
  exact List.map_congr_left fun d hd => insert_eq_onCollection (hids d hd)

theorem foldlM_insertions (c : Collection) :
    (insertions name ds).foldlM (fun c f => f c) c = c.load name (ds.map Subtype.val) := by
  rw [insertions, Collection.load, List.foldlM_map, List.foldlM_map]

theorem loadThenIndex_eq_ok_iff (hids : ∀ d ∈ ds, Fields.contains d.1 idField = true) :
    loadThenIndex name spec ds s = (.ok (), t) ↔
      ∃ c, (∃ loaded, (s.store.collection name).load name (ds.map Subtype.val) = .ok loaded ∧
        loaded.createIndex name spec = .ok c) ∧ t = s.withCollection name c := by
  have hsteps : ds.map (fun d => insert name d.1) ++ [createIndex name spec] =
      (insertions name ds ++ [fun c : Collection => c.createIndex name spec]).map (onCollection name) := by
    rw [map_insert_eq hids, List.map_append]
    rfl
  rw [loadThenIndex, hsteps, inOrder_onCollection_iff (by simp), List.foldlM_append, foldlM_insertions]
  simp only [bind_eq_ok_iff, List.foldlM_cons, List.foldlM_nil]
  simp only [pure, Except.pure, Except.ok.injEq, exists_eq_right]

theorem indexThenLoad_eq_ok_iff (hids : ∀ d ∈ ds, Fields.contains d.1 idField = true) :
    indexThenLoad name spec ds s = (.ok (), t) ↔
      ∃ c, (∃ indexed, (s.store.collection name).createIndex name spec = .ok indexed ∧
        indexed.load name (ds.map Subtype.val) = .ok c) ∧ t = s.withCollection name c := by
  have hsteps : createIndex name spec :: ds.map (fun d => insert name d.1) =
      ((fun c => c.createIndex name spec) :: insertions name ds).map (onCollection name) := by
    rw [map_insert_eq hids, List.map_cons]
    rfl
  rw [indexThenLoad, hsteps, inOrder_onCollection_iff (List.cons_ne_nil _ _)]
  simp only [List.foldlM_cons, foldlM_insertions, bind_eq_ok_iff]

/-- Whether documents are admitted does not depend on their order, as none of them holds a key twice. -/
theorem admits_perm_iff (c : Collection) (spec : IndexSpec) (h : es.Perm ds) :
    c.Admits spec (es.map Subtype.val) ↔ c.Admits spec (ds.map Subtype.val) := by
  rw [Collection.Admits, Collection.Admits, List.pairwise_map, List.pairwise_map]
  exact and_congr_right fun _ => h.pairwise_iff fun {a b} hab => Collection.collides_symm b.2 a.2 hab

/-- **It makes no difference whether an index is created before or after the documents are sent**, to a
collection that has none yet, nor an index of that name. Each way all steps succeed iff they do the other
way, and leave the same server, whose collection holds the documents as they were sent and the new index
after the ones that it had. Nor does it make a difference in which order the documents are sent. -/
theorem load_index_iff (hempty : (s.store.collection name).documents = [])
    (hnew : ∀ other ∈ (s.store.collection name).indexes, other.name ≠ spec.name)
    (hids : ∀ d ∈ ds, Fields.contains d.1 idField = true) :
    (∀ t, loadThenIndex name spec ds s = (.ok (), t) ↔ indexThenLoad name spec ds s = (.ok (), t)) ∧
      (∀ t, loadThenIndex name spec ds s = (.ok (), t) →
        t = s.withCollection name ⟨ds.map Subtype.val, (s.store.collection name).indexes ++ [spec]⟩) ∧
      ∀ es : List Sent, es.Perm ds →
        ((∃ t, loadThenIndex name spec es s = (.ok (), t)) ↔ ∃ t, loadThenIndex name spec ds s = (.ok (), t)) := by
  have hloaded {ds : List Sent} (hids : ∀ d ∈ ds, Fields.contains d.1 idField = true) (t : Server) :
      loadThenIndex name spec ds s = (.ok (), t) ↔
        (s.store.collection name).Admits spec (ds.map Subtype.val) ∧
          t = s.withCollection name ⟨ds.map Subtype.val, (s.store.collection name).indexes ++ [spec]⟩ := by
    rw [loadThenIndex_eq_ok_iff hids]
    simp only [Collection.load_createIndex_iff hempty hnew, and_assoc, exists_and_left, exists_eq_left]
  refine ⟨fun t => ?_, fun t h => ((hloaded hids t).1 h).2, fun es hes => ?_⟩
  · rw [hloaded hids, indexThenLoad_eq_ok_iff hids]
    simp only [Collection.createIndex_load_iff hempty hnew, and_assoc, exists_and_left, exists_eq_left]
  · have hids' : ∀ d ∈ es, Fields.contains d.1 idField = true := fun d hd => hids d (hes.mem_iff.1 hd)
    simp only [hloaded hids, hloaded hids', exists_and_left, exists_eq, and_true]
    exact admits_perm_iff _ spec hes

/-- Three documents, one of them without the field of a unique index, beside another index; and two that
agree on it. -/
theorem load_index_of_codes :
    let byName : IndexSpec := ⟨"byName", [⟨"name", .text⟩], false, .standard⟩
    let byCode : IndexSpec := ⟨"byCode", [⟨"code.main", .ascending⟩], true, .standard⟩
    let s := (createIndex "notes" byName .empty).2
    let a : Sent := ⟨[("_id", .int32 1), ("code", .document [("main", .int32 7)])], by decide⟩
    let b : Sent := ⟨[("_id", .int32 2), ("code", .document [("main", .array [.int32 7])])], by decide⟩
    let c : Sent := ⟨[("_id", .string "c")], by decide⟩
    let again : Sent := ⟨[("_id", .int32 3), ("code", .document [("main", .int64 7)])], by decide⟩
    (∃ t, indexThenLoad "notes" byCode [a, b, c] s = (.ok (), t) ∧
      t.store.collection "notes" = ⟨[a.1, b.1, c.1], [byName, byCode]⟩) ∧
      (∃ t, loadThenIndex "notes" byCode [c, b, a] s = (.ok (), t)) ∧
      ¬∃ t, indexThenLoad "notes" byCode [a, again] s = (.ok (), t) := by
  intro byName byCode s a b c again
  have hnew : ∀ other ∈ (s.store.collection "notes").indexes, other.name ≠ byCode.name := by decide
  have hids : ∀ d ∈ [a, b, c], Fields.contains d.1 idField = true := by decide
  obtain ⟨hsame, hafter, hperm⟩ := load_index_iff (s := s) rfl hnew hids
  obtain ⟨t, ht⟩ : ∃ t, loadThenIndex "notes" byCode [a, b, c] s = (.ok (), t) := ⟨_, rfl⟩
  refine ⟨⟨t, (hsame t).1 ht, ?_⟩, (hperm [c, b, a] (List.reverse_perm [a, b, c])).2 ⟨t, ht⟩, ?_⟩
  · rw [hafter t ht, collection_withCollection]
    rfl
  · have hids : ∀ d ∈ [a, again], Fields.contains d.1 idField = true := by decide
    obtain ⟨hsame, -, -⟩ := load_index_iff (s := s) rfl hnew hids
    rintro ⟨t, ht⟩
    cases (hsame t).2 ht

end Server
end Docbase
