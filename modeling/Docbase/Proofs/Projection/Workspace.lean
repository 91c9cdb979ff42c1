/-
Projections that share tables. A workspace holds tables and the projections over them;
a projection keeps the place at which it was made, and a step works on one of them, or
makes another. No step makes a projection outgrow its table, and for that reason the
projections that a step does not write to look the same after it, although their tables
may have grown (`Step.run_advances`); so they do after any number of steps
(`Reaches.advances`). With what a step does to the projection it writes to, these are
the laws of a map: `projection_laws`.
-/
import Docbase.Proofs.Projection.IndexedNames
import Docbase.Proofs.Projection.Observation

namespace Docbase

structure Workspace where
  tables : NameTables
  projections : List Projection

namespace Workspace

open NameTables Projection

variable {α : Type} {w w' w'' : Workspace} {ts : NameTables} {p p' : Projection} {i j : Nat} {js ks : List Nat}

/-! ## Steps -/

/-- Changes one projection, and the tables with it. -/
def edit (i : Nat) (f : NameTables → Projection → α × NameTables × Projection) (w : Workspace) :
    Option (α × Workspace) :=
  (w.projections[i]?).map fun p =>
    let (a, ts, p) := f w.tables p
    (a, ⟨ts, w.projections.set i p⟩)

/-- A new projection, and its place. -/
def add (ts : NameTables) (p : Projection) (w : Workspace) : Nat × Workspace :=
  (w.projections.length, ⟨ts, w.projections ++ [p]⟩)

/-- What is done with tables and projections, by what it answers. -/
inductive Step : Type → Type where
  | create (names : List String) : Step TableId
  | onTable (t : TableId) (strategy : NamingStrategy) : Step Nat
  | ofParts (t : TableId) (values : List Value) (strategy : NamingStrategy) : Step (Result Nat)
  | ofDocument (t : TableId) (d : Document) (strategy : NamingStrategy) : Step Nat
  | copy (i : Nat) : Step Nat
  | set (i : Nat) (name : String) (v : Value) : Step String
  | insert (i : Nat) (name : String) (v : Value) : Step (Result Unit)
  | remove (i : Nat) (name : String) : Step Bool
  | clear (i : Nat) : Step Unit
  | setStrategy (i : Nat) (strategy : NamingStrategy) : Step Unit

namespace Step

/-- A step, if there is the table or the projection that it is about. -/
def run : Step α → Workspace → Option (α × Workspace)
  | .create names, w =>
    let (ts, t) := w.tables.create names
    some (t, { w with tables := ts })
  | .onTable t strategy, w =>
    if t < w.tables.tables.length then some (w.add w.tables (Projection.onTable t strategy)) else none
  | .ofParts t values strategy, w =>
    if t < w.tables.tables.length then
      match Projection.ofParts w.tables t values strategy with
      | .error e => some (.error e, w)
      | .ok p =>
        let (i, w) := w.add w.tables p
        some (.ok i, w)
    else none
  | .ofDocument t d strategy, w =>
    if t < w.tables.tables.length then
      let (ts, p) := Projection.ofDocument w.tables t d strategy
      some (w.add ts p)
    else none
  | .copy i, w => (w.projections[i]?).map fun p => w.add w.tables p
  | .set i name v, w =>
    w.edit i fun ts p =>
      let (ts, p, key) := p.set ts name v
      (key, ts, p)
  | .insert i name v, w =>
    w.edit i fun ts p =>
      match p.insert ts name v with
      | .error e => (.error e, ts, p)
      | .ok (ts, p) => (.ok (), ts, p)
  | .remove i name, w =>
    w.edit i fun ts p =>
      let (p, held) := p.remove ts name
      (held, ts, p)
  | .clear i, w => w.edit i fun ts p => ((), ts, p.clear)
  | .setStrategy i strategy, w => w.edit i fun ts p => ((), ts, { p with strategy })

/-- The projection whose values a step may change. -/
def writes : Step α → List Nat
  | .set i _ _ | .insert i _ _ | .remove i _ | .clear i => [i]
  | _ => []

end Step

/-- Whether a workspace comes from another by steps that write to certain projections. -/
inductive Reaches (w : Workspace) : List Nat → Workspace → Prop where
  | refl : Reaches w [] w
  | step {w' w'' : Workspace} {js : List Nat} {α : Type} {o : Step α} {a : α} (h : Reaches w js w')
    (hrun : o.run w' = some (a, w'')) : Reaches w (js ++ o.writes) w''

/-- Whether a workspace comes from tables alone. -/
def Reachable (w : Workspace) : Prop := ∃ ts js, Reaches ⟨ts, []⟩ js w

/-! ## Steps do not disturb -/

def view? (w : Workspace) (i : Nat) : Option Observation := (w.projections[i]?).map (observe w.tables)

/-- Whether all projections fit their tables. -/
def Valid (w : Workspace) : Prop := ∀ p ∈ w.projections, p.Fits w.tables

/-- What a run from a valid workspace leaves alone: it only adds names to tables, and all projections that
it does not write to look the same. -/
structure Advances (w : Workspace) (js : List Nat) (w' : Workspace) : Prop where
  valid : w'.Valid
  tables : w.tables.Extends w'.tables
  views : ∀ j o, j ∉ js → w.view? j = some o → w'.view? j = some o

theorem Advances.refl (hw : w.Valid) : w.Advances [] w := ⟨hw, .refl _, fun _ _ _ h => h⟩

theorem Advances.trans (h : w.Advances js w') (h' : w'.Advances ks w'') : w.Advances (js ++ ks) w'' where
  valid := h'.valid
  tables := h.tables.trans h'.tables
  views j o hj hobserve := by
    rw [List.mem_append, not_or] at hj
    exact h'.views j o hj.2 (h.views j o hj.1 hobserve)

/-- A projection that is kept looks the same. -/
theorem Valid.view?_eq (hw : w.Valid) (hts : w.tables.Extends w'.tables)
    (hkept : w'.projections[j]? = w.projections[j]?) : w'.view? j = w.view? j := by
  rw [view?, view?, hkept]
  cases hp : w.projections[j]? with
  | none => rfl
  | some p => exact congrArg some ((hw p (List.mem_of_getElem? hp)).observe_extended hts)

theorem edit_eq_some_iff {f : NameTables → Projection → α × NameTables × Projection} {a : α} :
    w.edit i f = some (a, w') ↔ ∃ p, w.projections[i]? = some p ∧ (f w.tables p).1 = a ∧
      w' = ⟨(f w.tables p).2.1, w.projections.set i (f w.tables p).2.2⟩ := by
  rw [edit, Option.map_eq_some_iff]
  refine exists_congr fun p => and_congr_right fun _ => ?_
  rw [Prod.mk.injEq, eq_comm (a := w')]

/-- A change of one projection leaves the others alone, and that one if it looks the same. -/
theorem advances_edit {f : NameTables → Projection → α × NameTables × Projection} {a : α} (hw : w.Valid)
    (hedit : w.edit i f = some (a, w'))
    (hf : ∀ p, p.Fits w.tables →
      w.tables.Extends (f w.tables p).2.1 ∧ (f w.tables p).2.2.Fits (f w.tables p).2.1 ∧
        (i ∈ js ∨ (f w.tables p).2.2.observe (f w.tables p).2.1 = p.observe w.tables)) :
    w.Advances js w' := by
  obtain ⟨p, hp, -, rfl⟩ := edit_eq_some_iff.1 hedit
  obtain ⟨hts, hfits, hsame⟩ := hf p (hw p (List.mem_of_getElem? hp))
  refine ⟨fun q hq => ?_, hts, fun j o hj hobserve => ?_⟩
  · rcases List.mem_or_eq_of_mem_set hq with hq | rfl
    · exact (hw q hq).extended hts
    · exact hfits
  · rw [← hobserve]
    by_cases hij : i = j
    · subst hij
      have hi : i < w.projections.length := (List.getElem?_eq_some_iff.1 hp).1
      rw [view?, List.getElem?_set_self hi, Option.map_some, hsame.resolve_left hj, view?, hp, Option.map_some]
    · exact hw.view?_eq hts (List.getElem?_set_ne hij)

theorem advances_tables (hw : w.Valid) (hts : w.tables.Extends ts) : w.Advances [] { w with tables := ts } where
  valid q hq := (hw q hq).extended hts
  tables := hts
  views j o _ hobserve := by
    rw [← hobserve]
    exact hw.view?_eq hts rfl

theorem advances_add (hw : w.Valid) (hts : w.tables.Extends ts) (hfits : p.Fits ts) :
    w.Advances [] (w.add ts p).2 where
  valid q hq := by
    rcases List.mem_append.1 hq with hq | hq
    · exact (hw q hq).extended hts
    · rwa [List.mem_singleton.1 hq]
  tables := hts
  views j o _ hobserve := by
    obtain ⟨q, hq, -⟩ := Option.map_eq_some_iff.1 hobserve
    have hj : j < w.projections.length := (List.getElem?_eq_some_iff.1 hq).1
    rw [← hobserve]
    exact hw.view?_eq hts (List.getElem?_append_left hj)

/-- **A step only adds names to tables, and disturbs no projection but the one it writes to.** -/
theorem Step.run_advances {o : Step α} {a : α} (hw : w.Valid) (hrun : o.run w = some (a, w')) :
    w.Advances o.writes w' := by
  cases o with
  | create names =>
    rw [run] at hrun
    cases hrun
    exact advances_tables hw (extends_create w.tables names)
  | onTable t strategy =>
    rw [run] at hrun
    split at hrun
    · next ht =>
      cases hrun
      exact advances_add hw (.refl _) (fits_onTable ht strategy)
    · cases hrun
  | ofParts t values strategy =>
    rw [run] at hrun
    split at hrun
    · next ht =>
      split at hrun
      · cases hrun
        exact .refl hw
      · next p hp =>
        cases hrun
        exact advances_add hw (.refl _) (fits_ofParts ht hp)
    · cases hrun
  | ofDocument t d strategy =>
    rw [run] at hrun
    split at hrun
    · next ht =>
      cases hrun
      obtain ⟨hts, hfits⟩ := fits_ofDocument ht d strategy
      exact advances_add hw hts hfits
    · cases hrun
  | copy i =>
    rw [run, Option.map_eq_some_iff] at hrun
    obtain ⟨p, hp, h⟩ := hrun
    cases h
    exact advances_add hw (.refl _) (hw p (List.mem_of_getElem? hp))
  | set i name v =>
    rw [run] at hrun
    exact advances_edit hw hrun fun p hp =>
      ⟨extends_place _ _ _, hp.put _ v, .inl (List.mem_singleton_self i)⟩
  | insert i name v =>
    rw [run] at hrun
    refine advances_edit hw hrun fun p hp => ?_
    split
    · exact ⟨.refl _, hp, .inr rfl⟩
    · next ts p' hinsert =>
      obtain ⟨hts, hfits⟩ := hp.insert hinsert
      exact ⟨hts, hfits, .inl (List.mem_singleton_self i)⟩
  | remove i name =>
    rw [run] at hrun
    exact advances_edit hw hrun fun p hp => ⟨.refl _, hp.remove name, .inl (List.mem_singleton_self i)⟩
  | clear i =>
    rw [run] at hrun
    exact advances_edit hw hrun fun p hp => ⟨.refl _, hp.clear, .inl (List.mem_singleton_self i)⟩
  | setStrategy i strategy =>
    rw [run] at hrun
    exact advances_edit hw hrun fun p hp => ⟨.refl _, hp.of_slots rfl rfl, .inr rfl⟩

theorem Reaches.advances (h : w.Reaches js w') (hw : w.Valid) : w.Advances js w' := by
  induction h with
  | refl => exact .refl hw
  | step _ hrun ih => exact ih.trans (Step.run_advances ih.valid hrun)

theorem Reachable.valid (h : w.Reachable) : w.Valid := by
  obtain ⟨ts, js, hreaches⟩ := h
  exact (hreaches.advances (List.forall_mem_nil _)).valid

/-! ## What a step writes -/

theorem edit_of_get? {f : NameTables → Projection → α × NameTables × Projection}
    (hp : w.projections[i]? = some p) : ∃ w', w.edit i f = some ((f w.tables p).1, w') ∧
      w'.tables = (f w.tables p).2.1 ∧
      w'.view? i = some ((f w.tables p).2.2.observe (f w.tables p).2.1) := by
  refine ⟨_, edit_eq_some_iff.2 ⟨p, hp, rfl, rfl⟩, rfl, ?_⟩
  rw [view?, List.getElem?_set_self (List.getElem?_eq_some_iff.1 hp).1, Option.map_some]

theorem run_set (hp : w.projections[i]? = some p) (hfits : p.Fits w.tables) (name : String) (v : Value) :
    ∃ w' o, (Step.set i name v).run w = some (p.strategy.fieldName name, w') ∧ w'.view? i = some o ∧
      (p.observe w.tables).Alters (p.strategy.fieldName name) (some v) o := by
  rw [Step.run]
  obtain ⟨w', hedit, -, hobserve⟩ := edit_of_get? (f := fun ts p =>
    let (ts, p, key) := p.set ts name v
    (key, ts, p)) hp
  exact ⟨w', _, hedit, hobserve, alters_put hfits _ v⟩

theorem run_insert_of_contains (hp : w.projections[i]? = some p) {name : String}
    (hheld : p.contains w.tables (p.strategy.fieldName name) = true) (v : Value) :
    (Step.insert i name v).run w = some (.error (.invalidArgument (p.strategy.fieldName name)), w) := by
  have hinsert : p.insert w.tables name v = .error (.invalidArgument (p.strategy.fieldName name)) := if_pos hheld
  have hset : w.projections.set i p = w.projections := by
    obtain ⟨hi, rfl⟩ := List.getElem?_eq_some_iff.1 hp
    exact List.set_getElem_self hi
  rw [Step.run, edit_eq_some_iff]
  refine ⟨p, hp, by rw [hinsert], ?_⟩
  rw [hinsert, hset]

theorem run_insert_of_not_contains (hp : w.projections[i]? = some p) {name : String}
    (hfree : p.contains w.tables (p.strategy.fieldName name) = false) (v : Value) :
    (Step.insert i name v).run w = ((Step.set i name v).run w).map fun r => (.ok (), r.2) := by
  have hinsert : p.insert w.tables name v = .ok (p.put w.tables (p.strategy.fieldName name) v) :=
    if_neg (by rw [hfree]; exact Bool.false_ne_true)
  rw [Step.run, Step.run, edit, edit, hp]
  simp only [Option.map_some, hinsert]
  rfl

theorem run_remove (hp : w.projections[i]? = some p) (name : String) :
    ∃ w' o, (Step.remove i name).run w = some (p.contains w.tables name, w') ∧ w'.tables = w.tables ∧
      w'.view? i = some o ∧ (p.observe w.tables).Alters name none o := by
  rw [Step.run, ← remove_snd]
  obtain ⟨w', hedit, htables, hobserve⟩ := edit_of_get? (f := fun ts p =>
    let (p, held) := p.remove ts name
    (held, ts, p)) hp
  exact ⟨w', _, hedit, htables, hobserve, alters_remove _ p name⟩

theorem run_clear (hp : w.projections[i]? = some p) :
    ∃ w' o, (Step.clear i).run w = some ((), w') ∧ w'.tables = w.tables ∧ w'.view? i = some o ∧
      ∀ name, o.get? name = none ∧ o.contains name = false := by
  rw [Step.run]
  obtain ⟨w', hedit, htables, hobserve⟩ := edit_of_get? (f := fun ts p => ((), ts, p.clear)) hp
  exact ⟨w', _, hedit, htables, hobserve, fun name =>
    ⟨get?_clear _ p name, congrArg Option.isSome (get?_clear _ p name)⟩⟩

/-- **Projections that share tables are maps, and do not disturb each other.** In every workspace that comes
from tables by steps, whatever names the tables hold: setting a name gives the value under the name that
the strategy resolves it to; inserting is setting, and is refused iff there is a value, and then nothing
has changed; removing tells whether there was a value; clearing leaves no value. All other names of the
projection keep what they have. Any run of steps only adds names to tables that they do not hold, and
leaves all that can be seen of the projections that it does not write to. There are as many pairs as
values. None of this depends on whether tables are searched or look names up in an index. -/
theorem projection_laws (hw : w.Reachable) :
    (∀ i p, w.projections[i]? = some p →
      (∀ name v, ∃ w' o, (Step.set i name v).run w = some (p.strategy.fieldName name, w') ∧
        w'.view? i = some o ∧ (p.observe w.tables).Alters (p.strategy.fieldName name) (some v) o) ∧
      (∀ name v, (Step.insert i name v).run w =
        if p.contains w.tables (p.strategy.fieldName name) then
          some (.error (.invalidArgument (p.strategy.fieldName name)), w)
        else ((Step.set i name v).run w).map fun r => (.ok (), r.2)) ∧
      (∀ name, ∃ w' o, (Step.remove i name).run w = some (p.contains w.tables name, w') ∧
        w'.tables = w.tables ∧ w'.view? i = some o ∧ (p.observe w.tables).Alters name none o) ∧
      (∃ w' o, (Step.clear i).run w = some ((), w') ∧ w'.tables = w.tables ∧ w'.view? i = some o ∧
        ∀ name, o.get? name = none ∧ o.contains name = false) ∧
      (p.items w.tables).length = p.length) ∧
    (∀ js w', w.Reaches js w' → w.tables.Extends w'.tables ∧
      ∀ j o, j ∉ js → w.view? j = some o → w'.view? j = some o) ∧
    ∀ (ts : NameTables) names keys, ((IndexedNames.ofNames names).placeAll keys).Answers
      ((ts.create names).1.placeAll (ts.create names).2 keys) (ts.create names).2 := by
  refine ⟨?_, ?_, IndexedNames.answers_placeAll⟩
  · intro i p hp
    have hfits : p.Fits w.tables := hw.valid p (List.mem_of_getElem? hp)
    refine ⟨run_set hp hfits, fun name v => ?_, run_remove hp, run_clear hp, length_items hfits.slots⟩
    split
    · next hheld => exact run_insert_of_contains hp hheld v
    · next hfree => exact run_insert_of_not_contains hp (Bool.eq_false_iff.2 hfree) v
  · intro js w' hreaches
    have hadvances := hreaches.advances hw.valid
    exact ⟨hadvances.tables, hadvances.views⟩

/-- Two projections over a table that holds a name twice. Setting a new name on the second adds it to the
table, and the first looks the same. -/
theorem projection_laws_of_repeated_name :
    let p : Projection := ⟨0, [some (.int32 1), some (.int32 2), some (.int32 3)], .verbatim⟩
    let q : Projection := ⟨0, [], .camelCase⟩
    let w : Workspace := ⟨⟨[["a", "b", "a"]]⟩, [p, q]⟩
    w.Reachable ∧ (Step.insert 0 "b" .null).run w = some (.error (.invalidArgument "b"), w) ∧
      ∃ w' o, (Step.set 1 "Name" (.string "x")).run w = some ("name", w') ∧
        w'.tables.tables = [["a", "b", "a", "name"]] ∧ w'.view? 1 = some o ∧
        o.get? "name" = some (.string "x") ∧ w'.view? 0 = w.view? 0 := by
  intro p q w
  have hreaches : Reaches ⟨⟨[["a", "b", "a"]]⟩, []⟩ [] w :=
    (Reaches.refl.step (o := .ofParts 0 [.int32 1, .int32 2, .int32 3] .verbatim) rfl).step
      (o := .onTable 0 .camelCase) rfl
  have hw : w.Reachable := ⟨_, _, hreaches⟩
  obtain ⟨hlaws, hruns, -⟩ := projection_laws hw
  obtain ⟨-, hinsert, -⟩ := hlaws 0 p rfl
  obtain ⟨hset, -⟩ := hlaws 1 q rfl
  obtain ⟨w', o, hrun, hobserve, halters⟩ := hset "Name" (.string "x")
  have hkey : q.strategy.fieldName "Name" = "name" := by decide
  have hothers := (hruns _ w' (Reaches.refl.step hrun)).2 0 _ (by decide) rfl
  rw [hkey] at hrun halters
  have htables : ((Step.set 1 "Name" (.string "x")).run w).map (fun r => r.2.tables.tables) =
      some [["a", "b", "a", "name"]] := by rfl
  rw [hrun] at htables
  exact ⟨hw, hinsert "b" .null, w', o, hrun, Option.some.inj htables, hobserve, halters.get?_self, hothers⟩

end Workspace
end Docbase
