/-
Projections of many documents over one table that is new. As the documents are gone through, the table holds the
names that have been met so far, each at the place where it was met first (`names_ofDocuments`). All of them
are different, so a projection shows its pairs in the order of the table (`items_eq_of_nodup`). What it holds is
what it would hold over a table of its own, as soon as it is made and after all that the table grows by
later documents (`ofDocuments_asAlone`).
-/
import Docbase.Proofs.Projection.Items

namespace Docbase

open NameTables

variable {ts ts' : NameTables} {t : TableId} {s : NamingStrategy} {p : Projection} {seen : List String}

/-- The names that the keys of a document resolve to, in order. -/
def NamingStrategy.namesOf (s : NamingStrategy) (d : Document) : List String := (Fields.keys d).map s.fieldName

/-! ## Names in order of first appearance -/

namespace NameTables

theorem eraseDups_concat (seen : List String) (key : String) : (seen ++ [key]).eraseDups =
    if key ∈ seen then seen.eraseDups else seen.eraseDups ++ [key] := by
  rw [List.eraseDups_append]
  by_cases hkey : key ∈ seen <;> simp [List.removeAll, List.eraseDups_cons, hkey]

/-- A table that holds what has been met holds it after one more name has been placed. -/
theorem names_place_seen (ht : ts.Has t) (h : ts.names t = seen.eraseDups) (key : String) :
    (ts.place t key).1.names t = (seen ++ [key]).eraseDups := by
  rw [names_place ht, eraseDups_concat, h]
  simp only [List.mem_eraseDups]

theorem names_create (ts : NameTables) (names : List String) :
    (ts.create names).1.names (ts.create names).2 = names := by
  simp [create, NameTables.names]

theorem has_create (ts : NameTables) (names : List String) : (ts.create names).1.Has (ts.create names).2 := by
  simp [Has, create]

end NameTables

namespace Projection

theorem names_setFields (ht : ts.Has p.table) (h : ts.names p.table = seen.eraseDups) (d : Document) :
    (p.setFields ts d).1.names p.table = (seen ++ p.strategy.namesOf d).eraseDups := by
  induction d generalizing ts p seen with
  | nil =>
    rw [NamingStrategy.namesOf, Fields.keys, List.map_nil, List.map_nil, List.append_nil]
    exact h
  | cons f d ih =>
    obtain ⟨name, v⟩ := f
    have hplaced := names_place_seen ht h (p.strategy.fieldName name)
    have hrest := ih (p := (p.put ts (p.strategy.fieldName name) v).2) ((grows_put ht _ v).has ht) hplaced
    rw [setFields_cons, NamingStrategy.namesOf, Fields.keys, List.map_cons, List.map_cons, List.append_cons]
    exact hrest

theorem names_ofDocument (ht : ts.Has t) (h : ts.names t = seen.eraseDups) (d : Document) :
    (ofDocument ts t d s).1.names t = (seen ++ s.namesOf d).eraseDups :=
  names_setFields (p := onTable t s) ht h d

/-- The table after projections of documents, given what has been met before them. -/
theorem names_ofDocuments (ht : ts.Has t) (h : ts.names t = seen.eraseDups) (ds : List Document) :
    (ofDocuments ts t s ds).1.names t = (seen ++ ds.flatMap s.namesOf).eraseDups := by
  induction ds generalizing ts seen with
  | nil =>
    rw [List.flatMap_nil, List.append_nil]
    exact h
  | cons d ds ih =>
    have hgrows := (ofDocument_holds (s := s) ht d).1
    rw [ofDocuments_cons, List.flatMap_cons, ← List.append_assoc]
    exact ih (hgrows.has ht) (names_ofDocument ht h d)

theorem table_ofDocuments (ht : ts.Has t) (ds : List Document) : ∀ p ∈ (ofDocuments ts t s ds).2, p.table = t := by
  induction ds generalizing ts with
  | nil => exact List.forall_mem_nil _
  | cons d ds ih =>
    obtain ⟨hgrows, htable, -⟩ := ofDocument_holds (s := s) ht d
    exact List.forall_mem_cons.2 ⟨htable, ih (hgrows.has ht)⟩

/-- Documents that come later go on where the table stands. -/
theorem ofDocuments_append (ts : NameTables) (t : TableId) (s : NamingStrategy) (ds later : List Document) :
    ofDocuments ts t s (ds ++ later) =
      ((ofDocuments (ofDocuments ts t s ds).1 t s later).1,
        (ofDocuments ts t s ds).2 ++ (ofDocuments (ofDocuments ts t s ds).1 t s later).2) := by
  induction ds generalizing ts with
  | nil => rfl
  | cons d ds ih => rw [List.cons_append, ofDocuments_cons, ih, ofDocuments_cons, List.cons_append]

/-! ## Pairs in the order of a table -/

theorem filled_of_nodup {names : List String} (hnodup : names.Nodup) (slots : List (Option Value)) :
    filled names slots = names.filterMap fun name =>
      ((names.idxOf? name).bind fun i => (slots[i]?).bind id).map fun v => (name, v) := by
  induction names generalizing slots with
  | nil => rfl
  | cons name names ih =>
    obtain ⟨hname, hnodup⟩ := List.nodup_cons.1 hnodup
    cases slots with
    | nil => simp [filled]
    | cons slot slots =>
      -- A name behind the first one stands one place further on, and so does its slot.
      have hrest : ∀ other ∈ names,
          (((name :: names).idxOf? other).bind fun i => ((slot :: slots)[i]?).bind id).map (fun v => (other, v)) =
            ((names.idxOf? other).bind fun i => (slots[i]?).bind id).map fun v => (other, v) := by
        intro other hother
        have hne : (name == other) = false := by
          rw [beq_eq_false_iff_ne]
          rintro rfl
          exact hname hother
        rw [List.idxOf?_cons, hne]
        cases names.idxOf? other <;> simp
      rw [filled_cons, ih hnodup, List.filterMap_cons, List.filterMap_congr hrest]
      cases slot <;> simp [List.idxOf?_cons]

/-- Over different names a projection shows what it holds in their order. -/
theorem items_eq_of_nodup (hnodup : (ts.names p.table).Nodup) :
    p.items ts = (ts.names p.table).filterMap fun name => (p.get? ts name).map fun v => (name, v) := by
  rw [items_eq_filled, filled_of_nodup hnodup]
  rfl

/-! ## Tables of one's own -/

/-- The projection of a document over a new table that no other projection has. -/
def alone (d : Document) (s : NamingStrategy) : NameTables × Projection :=
  let (ts, t) := NameTables.empty.create []
  ofDocument ts t d s

/-- Whether a projection has what that of the document over a table of its own has, and shows it in the order of
the table that it is over. -/
structure AsAlone (ts : NameTables) (p : Projection) (d : Document) (s : NamingStrategy) : Prop where
  get?_eq (name : String) : p.get? ts name = (alone d s).2.get? (alone d s).1 name
  perm : (p.items ts).Perm ((alone d s).2.items (alone d s).1)
  ordered : p.items ts = (ts.names p.table).filterMap fun name =>
    ((alone d s).2.get? (alone d s).1 name).map fun v => (name, v)

theorem alone_holds (d : Document) (s : NamingStrategy) :
    (alone d s).2.Addressable (alone d s).1 ∧ (alone d s).2.Holds (alone d s).1 (s.fieldsOf d) :=
  have ht := has_create NameTables.empty []
  ⟨addressable_ofDocument ht d s, (ofDocument_holds ht d s).2.2⟩

theorem Holds.asAlone {d : Document} (h : p.Holds ts (s.fieldsOf d)) (hnodup : (ts.names p.table).Nodup) :
    p.AsAlone ts d s := by
  obtain ⟨haddr, hholds⟩ := alone_holds d s
  have hkeys := Fields.nodup_keys_ofPairs (d.map fun f => (s.fieldName f.1, f.2))
  have hget : ∀ name, p.get? ts name = (alone d s).2.get? (alone d s).1 name :=
    fun name => (h.get?_eq name).trans (hholds.get?_eq name).symm
  refine ⟨hget, ?_, ?_⟩
  · exact (h.items_perm (addressable_of_nodup hnodup) hkeys).trans (hholds.items_perm haddr hkeys).symm
  · rw [items_eq_of_nodup hnodup]
    simp only [hget]

/-- Projections over one table of different names are as they would be alone, whatever has been added since. -/
theorem ofDocuments_asAlone (ht : ts.Has t) (hnodup : (ts.names t).Nodup) (ds : List Document)
    (hgrows : Grows t (ofDocuments ts t s ds).1 ts') :
    List.Forall₂ (fun p d => p.table = t ∧ p.AsAlone ts' d s) (ofDocuments ts t s ds).2 ds := by
  obtain ⟨hmade, hholds⟩ := ofDocuments_holds (s := s) ht ds
  have hover := (List.forall₂_and_left _ _).2 ⟨table_ofDocuments (s := s) ht ds, hholds⟩
  refine hover.imp fun p d ⟨htable, _, hp⟩ => ⟨htable, ?_⟩
  subst htable
  exact (hp.grown hgrows).asAlone ((hmade.trans hgrows).nodup hnodup)

end Projection
end Docbase
