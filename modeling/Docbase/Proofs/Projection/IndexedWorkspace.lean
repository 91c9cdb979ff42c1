/-
Projections that share tables with indexes. The steps are those of a workspace, but a
step looks every name up in the index of its table: to find a slot, to refuse a value
where there is one, and to place a new name.

The index of a table is right when it is made, and each step keeps it right. So a step
answers as it does where tables are searched, and leaves the same projections and names
(`Valid.run_agrees`); what is known of a workspace holds of one with indexes. With that,
every name is found where it stands first, and for good, and no projection has more slots
than its table has names (`finds_first`).
-/
import Docbase.Proofs.Projection.Workspace

namespace Docbase

namespace IndexedNames

open Projection (fillSlot)

/-! ## Projections over a table with an index -/

/-- What a projection over the table has under a name. -/
def get? (t : IndexedNames) (p : Projection) (name : String) : Option Value := (t.indexOf? name).bind p.slot?

/-- Puts a value under a name that is resolved already. -/
def put (t : IndexedNames) (p : Projection) (key : String) (v : Value) : IndexedNames × Projection :=
  let (t, i) := t.place key
  (t, { p with slots := fillSlot t.names.length p.slots i v })

/-- Sets a field; also tells its resolved name. -/
def set (t : IndexedNames) (p : Projection) (name : String) (v : Value) : IndexedNames × Projection × String :=
  let key := p.strategy.fieldName name
  let (t, p) := t.put p key v
  (t, p, key)

/-- Sets a field that has no value yet. -/
def insert (t : IndexedNames) (p : Projection) (name : String) (v : Value) : Result (IndexedNames × Projection) :=
  let key := p.strategy.fieldName name
  if (t.get? p key).isSome then .error (.invalidArgument key) else .ok (t.put p key v)

/-- Empties a field; also tells whether it held a value. -/
def remove (t : IndexedNames) (p : Projection) (name : String) : Projection × Bool :=
  match t.indexOf? name with
  | none => (p, false)
  | some i => if (p.slot? i).isSome then ({ p with slots := p.slots.set i none }, true) else (p, false)

def setFields (t : IndexedNames) (p : Projection) (fields : Document) : IndexedNames × Projection :=
  fields.foldl (fun (t, p) (name, v) => let (t, p, _) := t.set p name v; (t, p)) (t, p)

/-! ## The same on tables that are searched -/

/-- Tables without their indexes. -/
def plain (tables : List IndexedNames) : NameTables := ⟨tables.map names⟩

variable {tables : List IndexedNames} {t t' : IndexedNames} {id : TableId} {p p' : Projection}

theorem has_plain_iff : (plain tables).Has id ↔ id < tables.length := by
  rw [NameTables.Has, plain, List.length_map]

theorem represents_plain (ht : tables[id]? = some t) (hexact : t.Exact) : t.Represents (plain tables) id where
  has := has_plain_iff.2 (List.getElem?_eq_some_iff.1 ht).1
  names := by rw [NameTables.names, plain, List.getElem?_map, ht, Option.map_some, Option.getD_some]
  exact := hexact

theorem getElem?_set_of_get? (ht : tables[id]? = some t) (t' : IndexedNames) : (tables.set id t')[id]? = some t' :=
  List.getElem?_set_self (List.getElem?_eq_some_iff.1 ht).1

theorem set_of_get? (ht : tables[id]? = some t) : tables.set id t = tables := by
  obtain ⟨hid, rfl⟩ := List.getElem?_eq_some_iff.1 ht
  exact List.set_getElem_self hid

theorem place_plain (ht : tables[id]? = some t) (hexact : t.Exact) (key : String) :
    (plain tables).place id key = (plain (tables.set id (t.place key).1), (t.place key).2) := by
  have hrep := represents_plain ht hexact
  rw [NameTables.place, hrep.indexOf?_eq, place]
  cases hi : t.indexOf? key with
  | some i =>
    dsimp only
    rw [set_of_get? ht]
  | none =>
    have hnames : (plain tables).tables[id]? = some t.names := by
      rw [plain, List.getElem?_map, ht, Option.map_some]
    dsimp only
    rw [List.modify_eq_set_getElem?, hnames, hrep.names, Option.map_eq_map, Option.map_some, Option.getD_some,
      plain, plain, List.map_set]

theorem exact_put (hexact : t.Exact) (p : Projection) (key : String) (v : Value) : (t.put p key v).1.Exact :=
  exact_place hexact key

theorem put_plain (ht : tables[p.table]? = some t) (hexact : t.Exact) (key : String) (v : Value) :
    p.put (plain tables) key v = (plain (tables.set p.table (t.put p key v).1), (t.put p key v).2) := by
  have hrep := represents_plain (getElem?_set_of_get? ht _) (exact_place hexact key)
  rw [Projection.put_eq, place_plain ht hexact]
  dsimp only
  rw [hrep.names]
  rfl

theorem get?_plain (ht : tables[p.table]? = some t) (hexact : t.Exact) (name : String) :
    p.get? (plain tables) name = t.get? p name := by
  rw [Projection.get?, (represents_plain ht hexact).indexOf?_eq, get?]

theorem insert_plain (ht : tables[p.table]? = some t) (hexact : t.Exact) (name : String) (v : Value) :
    p.insert (plain tables) name v =
      (t.insert p name v).map fun r => (plain (tables.set p.table r.1), r.2) := by
  rw [Projection.insert, insert, Projection.contains, get?_plain ht hexact, put_plain ht hexact]
  split <;> rfl

theorem exact_insert (hexact : t.Exact) {name : String} {v : Value} {r : IndexedNames × Projection}
    (h : t.insert p name v = .ok r) : r.1.Exact := by
  unfold insert at h
  dsimp only at h
  split at h
  · cases h
  · cases h
    exact exact_put hexact p _ v

theorem remove_plain (ht : tables[p.table]? = some t) (hexact : t.Exact) (name : String) :
    p.remove (plain tables) name = t.remove p name := by
  rw [Projection.remove, (represents_plain ht hexact).indexOf?_eq]
  rfl

theorem setFields_cons (t : IndexedNames) (p : Projection) (name : String) (v : Value) (d : Document) :
    t.setFields p ((name, v) :: d) =
      (t.put p (p.strategy.fieldName name) v).1.setFields (t.put p (p.strategy.fieldName name) v).2 d := rfl

theorem setFields_plain (ht : tables[p.table]? = some t) (hexact : t.Exact) (d : Document) :
    (t.setFields p d).1.Exact ∧ p.setFields (plain tables) d =
      (plain (tables.set p.table (t.setFields p d).1), (t.setFields p d).2) := by
  induction d generalizing tables t p with
  | nil =>
    refine ⟨hexact, ?_⟩
    rw [setFields, List.foldl_nil, set_of_get? ht]
    rfl
  | cons f d ih =>
    obtain ⟨name, v⟩ := f
    rw [setFields_cons, Projection.setFields_cons, put_plain ht hexact]
    obtain ⟨hexact', hrest⟩ := ih (p := (t.put p (p.strategy.fieldName name) v).2) (getElem?_set_of_get? ht _)
      (exact_put hexact p (p.strategy.fieldName name) v)
    refine ⟨hexact', hrest.trans ?_⟩
    -- Putting a value leaves a projection at its table, which is changed once more.
    exact congrArg (fun tables => (plain tables, _)) (List.set_set _)

end IndexedNames

/-- Tables with indexes, and projections over them. -/
structure IndexedWorkspace where
  tables : List IndexedNames
  projections : List Projection

namespace IndexedWorkspace

open IndexedNames Workspace

variable {α : Type} {w w' w'' : IndexedWorkspace}

/-! ## Steps -/

/-- Changes one projection, and its table with it. -/
def edit (i : Nat) (f : IndexedNames → Projection → α × IndexedNames × Projection) (w : IndexedWorkspace) :
    Option (α × IndexedWorkspace) :=
  (w.projections[i]?).bind fun p => (w.tables[p.table]?).map fun t =>
    let (a, t, p') := f t p
    (a, ⟨w.tables.set p.table t, w.projections.set i p'⟩)

/-- A new projection, and its place. -/
def add (tables : List IndexedNames) (p : Projection) (w : IndexedWorkspace) : Nat × IndexedWorkspace :=
  (w.projections.length, ⟨tables, w.projections ++ [p]⟩)

/-- A step, if there is the table or the projection that it is about. -/
def run : Step α → IndexedWorkspace → Option (α × IndexedWorkspace)
  | .create names, w => some (w.tables.length, { w with tables := w.tables ++ [ofNames names] })
  | .onTable t strategy, w => (w.tables[t]?).map fun _ => w.add w.tables (Projection.onTable t strategy)
  | .ofParts t values strategy, w => (w.tables[t]?).map fun table =>
    if table.names.length < values.length then (.error (.invalidArgument "values"), w)
    else
      let (i, w) := w.add w.tables ⟨t, values.map some, strategy⟩
      (.ok i, w)
  | .ofDocument t d strategy, w => (w.tables[t]?).map fun table =>
    let (table, p) := table.setFields (Projection.onTable t strategy) d
    w.add (w.tables.set t table) p
  | .copy i, w => (w.projections[i]?).map fun p => w.add w.tables p
  | .set i name v, w =>
    w.edit i fun t p =>
      let (t, p, key) := t.set p name v
      (key, t, p)
  | .insert i name v, w =>
    w.edit i fun t p =>
      match t.insert p name v with
      | .error e => (.error e, t, p)
      | .ok (t, p) => (.ok (), t, p)
  | .remove i name, w =>
    w.edit i fun t p =>
      let (p, held) := t.remove p name
      (held, t, p)
  | .clear i, w => w.edit i fun t p => ((), t, p.clear)
  | .setStrategy i strategy, w => w.edit i fun t p => ((), t, { p with strategy })

/-- Whether a workspace comes from another by steps. -/
inductive Reaches (w : IndexedWorkspace) : IndexedWorkspace → Prop where
  | refl : Reaches w w
  | step {w' w'' : IndexedWorkspace} {α : Type} {o : Step α} {a : α} (h : Reaches w w')
    (hrun : run o w' = some (a, w'')) : Reaches w w''

/-- Whether a workspace comes from nothing. -/
def Reachable (w : IndexedWorkspace) : Prop := Reaches ⟨[], []⟩ w

/-! ## The same steps without indexes -/

/-- The workspace whose tables are searched. -/
def searched (w : IndexedWorkspace) : Workspace := ⟨plain w.tables, w.projections⟩

/-- Whether all indexes are right, and all projections fit their tables. -/
structure Valid (w : IndexedWorkspace) : Prop where
  exact : ∀ t ∈ w.tables, t.Exact
  fits : w.searched.Valid

theorem Valid.exact_of_get? (hw : w.Valid) {id : TableId} {t : IndexedNames} (ht : w.tables[id]? = some t) :
    t.Exact := hw.exact t (List.mem_of_getElem? ht)

/-- A projection of a valid workspace has its table. -/
theorem Valid.exists_table (hw : w.Valid) {p : Projection} (hp : p ∈ w.projections) :
    ∃ t, w.tables[p.table]? = some t := by
  have hhas : (plain w.tables).Has p.table := (hw.fits p hp).has
  exact ⟨_, List.getElem?_eq_getElem (has_plain_iff.1 hhas)⟩

/-- Whether a change over a table with an index is the change over the table without it, and keeps the
index right. -/
def Computes (f : NameTables → Projection → α × NameTables × Projection)
    (g : IndexedNames → Projection → α × IndexedNames × Projection) : Prop :=
  ∀ (tables : List IndexedNames) (t : IndexedNames) (p : Projection), tables[p.table]? = some t → t.Exact →
    (g t p).2.1.Exact ∧
      f (plain tables) p =
        ((g t p).1, plain (tables.set p.table (g t p).2.1), (g t p).2.2)

/-- Whether two outcomes of a step are the same but for the indexes, and these are right. -/
structure Agrees (x : Option (α × Workspace)) (y : Option (α × IndexedWorkspace)) : Prop where
  searched : x = y.map fun r => (r.1, r.2.searched)
  exact : ∀ a w', y = some (a, w') → ∀ t ∈ w'.tables, t.Exact

theorem agrees_none : Agrees (none : Option (α × Workspace)) none := ⟨rfl, fun _ _ h => nomatch h⟩

theorem agrees_some {a : α} {v : IndexedWorkspace} (h : ∀ t ∈ v.tables, t.Exact) :
    Agrees (some (a, v.searched)) (some (a, v)) where
  searched := rfl
  exact b w'' heq := by
    cases heq
    exact h

theorem Valid.exact_set (hw : w.Valid) (id : TableId) {t : IndexedNames} (ht : t.Exact) :
    ∀ t' ∈ w.tables.set id t, t'.Exact := by
  intro t' ht'
  rcases List.mem_or_eq_of_mem_set ht' with hmem | rfl
  · exact hw.exact t' hmem
  · exact ht

/-- A change of one projection and its table. -/
theorem Valid.agrees_edit (hw : w.Valid) {f : NameTables → Projection → α × NameTables × Projection}
    {g : IndexedNames → Projection → α × IndexedNames × Projection} (h : Computes f g) (i : Nat) :
    Agrees (w.searched.edit i f) (w.edit i g) := by
  rw [Workspace.edit, edit, searched]
  dsimp only
  cases hp : w.projections[i]? with
  | none => exact agrees_none
  | some p =>
    obtain ⟨t, ht⟩ := hw.exists_table (List.mem_of_getElem? hp)
    obtain ⟨hexact, hf⟩ := h w.tables t p ht (hw.exact_of_get? ht)
    rw [Option.map_some, Option.bind_some, ht, Option.map_some, hf]
    exact agrees_some (v := ⟨_, _⟩) (hw.exact_set p.table hexact)

/-- A step that is about a table. -/
theorem Valid.agrees_table (hw : w.Valid) {t : TableId} {x : Option (α × Workspace)}
    {g : IndexedNames → α × IndexedWorkspace}
    (h : ∀ table, w.tables[t]? = some table → table.Exact → Agrees x (some (g table))) :
    Agrees (if t < w.searched.tables.tables.length then x else none) ((w.tables[t]?).map g) := by
  have hhas : t < w.searched.tables.tables.length ↔ t < w.tables.length := has_plain_iff
  cases ht : w.tables[t]? with
  | none =>
    rw [if_neg (hhas.not.2 (Nat.not_lt.2 (List.getElem?_eq_none_iff.1 ht)))]
    exact agrees_none
  | some table =>
    rw [if_pos (hhas.2 (List.getElem?_eq_some_iff.1 ht).1)]
    exact h table ht (hw.exact_of_get? ht)

theorem Valid.agrees_add (hw : w.Valid) (p : Projection) :
    Agrees (some (w.searched.add w.searched.tables p)) (some (w.add w.tables p)) :=
  agrees_some (v := ⟨w.tables, w.projections ++ [p]⟩) hw.exact

theorem Valid.agrees_create (hw : w.Valid) (names : List String) :
    Agrees ((Step.create names).run w.searched) (run (.create names) w) := by
  have hstep : (Step.create names).run w.searched =
      some (w.tables.length, searched ⟨w.tables ++ [ofNames names], w.projections⟩) := by
    simp [Step.run, NameTables.create, searched, plain, ofNames]
  rw [hstep, run]
  refine agrees_some fun t ht => ?_
  rcases List.mem_append.1 ht with ht | ht
  · exact hw.exact t ht
  · rw [List.mem_singleton.1 ht]
    exact exact_ofNames names

/-- **A step on tables with indexes is the step on tables that are searched**: it answers the same, leaves
the same projections and names, and every index is right after it. -/
theorem Valid.run_agrees (hw : w.Valid) (o : Step α) : Agrees (o.run w.searched) (run o w) := by
  cases o with
  | create names => exact hw.agrees_create names
  | onTable t strategy =>
    rw [Step.run, run]
    exact hw.agrees_table fun table _ _ => hw.agrees_add _
  | ofParts t values strategy =>
    rw [Step.run, run]
    refine hw.agrees_table fun table ht hexact => ?_
    have hnames : w.searched.tables.names t = table.names := (represents_plain ht hexact).names
    rw [Projection.ofParts, hnames]
    by_cases hlength : table.names.length < values.length
    · rw [if_pos hlength, if_pos hlength]
      exact agrees_some hw.exact
    · rw [if_neg hlength, if_neg hlength]
      exact agrees_some (v := ⟨w.tables, w.projections ++ [_]⟩) hw.exact
  | ofDocument t d strategy =>
    rw [Step.run, run]
    refine hw.agrees_table fun table ht hexact => ?_
    obtain ⟨hfilled, hfields⟩ := setFields_plain (p := Projection.onTable t strategy) ht hexact d
    rw [Projection.ofDocument, searched, hfields]
    exact agrees_some (v := ⟨_, _⟩) (hw.exact_set t hfilled)
  | copy i =>
    rw [Step.run, run, searched]
    cases w.projections[i]? with
    | none => exact agrees_none
    | some p => exact hw.agrees_add p
  | set i name v =>
    rw [Step.run, run]
    refine hw.agrees_edit (fun tables t p ht hexact => ⟨exact_put hexact p _ v, ?_⟩) i
    rw [Projection.set, put_plain ht hexact]
    rfl
  | insert i name v =>
    rw [Step.run, run]
    refine hw.agrees_edit (fun tables t p ht hexact => ?_) i
    rw [insert_plain ht hexact]
    cases hinsert : t.insert p name v with
    | error e => exact ⟨hexact, by rw [set_of_get? ht]; rfl⟩
    | ok r => exact ⟨exact_insert hexact hinsert, rfl⟩
  | remove i name =>
    rw [Step.run, run]
    refine hw.agrees_edit (fun tables t p ht hexact => ⟨hexact, ?_⟩) i
    rw [remove_plain ht hexact, set_of_get? ht]
  | clear i =>
    rw [Step.run, run]
    refine hw.agrees_edit (fun tables t p ht hexact => ⟨hexact, ?_⟩) i
    rw [set_of_get? ht]
  | setStrategy i strategy =>
    rw [Step.run, run]
    refine hw.agrees_edit (fun tables t p ht hexact => ⟨hexact, ?_⟩) i
    rw [set_of_get? ht]

/-! ## Runs -/

theorem Valid.run (hw : w.Valid) {o : Step α} {a : α} (hrun : run o w = some (a, w')) :
    w'.Valid ∧ o.run w.searched = some (a, w'.searched) := by
  have hagrees := hw.run_agrees o
  have hsearched : o.run w.searched = some (a, w'.searched) := by rw [hagrees.searched, hrun, Option.map_some]
  exact ⟨⟨hagrees.exact a w' hrun, (Step.run_advances hw.fits hsearched).valid⟩, hsearched⟩

/-- A run is the run of the same steps without indexes. -/
theorem Reaches.searched (h : w.Reaches w') (hw : w.Valid) :
    w'.Valid ∧ ∃ js, w.searched.Reaches js w'.searched := by
  induction h with
  | refl => exact ⟨hw, [], .refl⟩
  | step _ hrun ih =>
    obtain ⟨hw', js, hreaches⟩ := ih
    obtain ⟨hw'', hstep⟩ := hw'.run hrun
    exact ⟨hw'', _, hreaches.step hstep⟩

theorem valid_empty : Valid ⟨[], []⟩ := ⟨List.forall_mem_nil _, List.forall_mem_nil _⟩

theorem Reachable.valid (h : w.Reachable) : w.Valid := (Reaches.searched h valid_empty).1

/-- A table keeps its place and its names, and all that its index tells. -/
theorem Reaches.table (h : w.Reaches w') (hw : w.Valid) {id : TableId} {t : IndexedNames}
    (ht : w.tables[id]? = some t) : ∃ t', w'.tables[id]? = some t' ∧ t.names <+: t'.names ∧
      ∀ name i, t.indexOf? name = some i → t'.indexOf? name = some i := by
  obtain ⟨hw', js, hreaches⟩ := h.searched hw
  have hrep := represents_plain ht (hw.exact_of_get? ht)
  have hgrows := (hreaches.advances hw.fits).tables.grows hrep.has
  have ht' := List.getElem?_eq_getElem (has_plain_iff.1 (hgrows.has hrep.has))
  have hrep' := represents_plain ht' (hw'.exact_of_get? ht')
  refine ⟨_, ht', ?_, fun name i hi => ?_⟩
  · rw [← hrep.names, ← hrep'.names]
    exact hgrows.names
  · rw [← hrep'.indexOf?_eq]
    rw [← hrep.indexOf?_eq] at hi
    exact hgrows.indexOf? hi

/-- **Tables with indexes find every name where it stands first.** In every workspace that comes from nothing
by steps, whatever lists of names its tables are made of, with repetitions or without: the index of a table
gives for a name the first position at which the table holds it, and nothing iff the table does not hold it;
in all that comes after, the table has its names where they were, and the index gives what it gave; and a
projection has its table, and no more slots than the table has names. Each step answers and leaves what it
does where tables are searched. -/
theorem finds_first (hw : w.Reachable) :
    (∀ t ∈ w.tables, ∀ name,
      (∀ i, t.indexOf? name = some i ↔ t.names[i]? = some name ∧ ∀ j < i, t.names[j]? ≠ some name) ∧
      (t.indexOf? name = none ↔ name ∉ t.names)) ∧
    (∀ w', w.Reaches w' → ∀ (id : TableId) t, w.tables[id]? = some t → ∃ t', w'.tables[id]? = some t' ∧
      t.names <+: t'.names ∧ ∀ name i, t.indexOf? name = some i → t'.indexOf? name = some i) ∧
    (∀ p ∈ w.projections, ∃ t, w.tables[p.table]? = some t ∧ p.slots.length ≤ t.names.length) ∧
    ∀ (α : Type) (o : Step α), o.run w.searched = (run o w).map fun r => (r.1, r.2.searched) := by
  have hvalid := hw.valid
  refine ⟨fun t ht name => ?_, fun w' hreaches id t ht => hreaches.table hvalid ht, fun p hp => ?_,
    fun α o => (hvalid.run_agrees o).searched⟩
  · have hexact := hvalid.exact t ht
    exact ⟨fun i => hexact.indexOf?_eq_some_iff, hexact.indexOf?_eq_none_iff⟩
  · obtain ⟨t, ht⟩ := hvalid.exists_table hp
    have hslots := (hvalid.fits p hp).slots
    rw [searched, (represents_plain ht (hvalid.exact_of_get? ht)).names] at hslots
    exact ⟨t, ht, hslots⟩

/-- Two projections over a table that holds a name twice, and a copy of the first. The second one adds a
name and grows to the length of the table; the index gives what it gave, and the new name. -/
theorem finds_first_of_repeated_name :
    let t := ofNames ["a", "b", "a"]
    let p : Projection := ⟨0, [some (.int32 1), some (.int32 2), some (.int32 3)], .verbatim⟩
    let q : Projection := ⟨0, [none, none, none, some (.string "x")], .camelCase⟩
    let w : IndexedWorkspace := ⟨[t], [p, ⟨0, [], .camelCase⟩, p]⟩
    let t' : IndexedNames := ⟨["a", "b", "a", "name"], [("a", 0), ("b", 1), ("name", 3)]⟩
    let w' : IndexedWorkspace := ⟨[t'], [p, q, p]⟩
    w.Reachable ∧ t.indexOf? "a" = some 0 ∧ t.indexOf? "name" = none ∧
      run (.set 1 "Name" (.string "x")) w = some ("name", w') ∧
      t'.indexOf? "a" = some 0 ∧ t'.indexOf? "name" = some 3 ∧
      ∀ r ∈ w'.projections, r.slots.length ≤ t'.names.length := by
  intro t p q w t' w'
  have hw : w.Reachable :=
    (((Reaches.refl.step (o := .create ["a", "b", "a"]) rfl).step
      (o := .ofParts 0 [.int32 1, .int32 2, .int32 3] .verbatim) rfl).step
      (o := .onTable 0 .camelCase) rfl).step (o := .copy 0) rfl
  have hrun : run (.set 1 "Name" (.string "x")) w = some ("name", w') := by rfl
  have hstep : w.Reaches w' := Reaches.refl.step hrun
  obtain ⟨hindex, hlater, -⟩ := finds_first hw
  obtain ⟨hindex', -, hslots', -⟩ := finds_first (Reaches.step hw hrun)
  have ha : t.indexOf? "a" = some 0 := ((hindex t (List.mem_singleton_self t) "a").1 0).2 (by decide)
  obtain ⟨t'', ht'', -, hkept⟩ := hlater w' hstep 0 t rfl
  cases ht''
  refine ⟨hw, ha, (hindex t (List.mem_singleton_self t) "name").2.2 (by decide), hrun, hkept "a" 0 ha,
    ((hindex' t' (List.mem_singleton_self t') "name").1 3).2 (by decide), fun r hr => ?_⟩
  obtain ⟨table, htable, hlength⟩ := hslots' r hr
  have hr : r.table = 0 := by
    simp only [w', List.mem_cons, List.not_mem_nil, or_false] at hr
    rcases hr with rfl | rfl | rfl <;> rfl
  rw [hr] at htable
  cases htable
  exact hlength

end IndexedWorkspace
end Docbase
