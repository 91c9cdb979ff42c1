/-
How tables of names grow. Placing a name adds it at the end, unless the table has
it (`names_place`), and no other table changes (`extends_place`). The positions of all
names before it stay (`Grows.indexOf?`), so nobody who looks names up in a table needs
to know that it has grown.
-/
import Docbase.Projection.NameTables
import Mathlib.Data.List.Infix
import Mathlib.Data.List.Nodup

namespace Docbase.NameTables

variable {ts ts' ts'' : NameTables} {t : TableId} {key name : String} {i : Nat}

theorem idxOf?_append {α : Type} [BEq α] (xs ys : List α) (a : α) :
    (xs ++ ys).idxOf? a = (xs.idxOf? a).or ((ys.idxOf? a).map fun i => i + xs.length) :=
  List.findIdx?_append

/-- Whether there is a table. -/
def Has (ts : NameTables) (t : TableId) : Prop := t < ts.tables.length

theorem indexOf?_eq_none_iff : ts.indexOf? t name = none ↔ name ∉ ts.names t := List.idxOf?_eq_none_iff

theorem names_of_indexOf? (h : ts.indexOf? t name = some i) : (ts.names t)[i]? = some name := by
  obtain ⟨hi, hname, -⟩ := List.idxOf?_eq_some_iff.1 h
  rw [List.getElem?_eq_getElem hi, hname]

theorem lt_of_indexOf? (h : ts.indexOf? t name = some i) : i < (ts.names t).length :=
  (List.idxOf?_eq_some_iff.1 h).1

/-- No two names stand at one position. -/
theorem eq_of_indexOf? (h : ts.indexOf? t name = some i) (h' : ts.indexOf? t key = some i) : name = key :=
  Option.some.inj ((names_of_indexOf? h).symm.trans (names_of_indexOf? h'))

/-! ## Placing a name -/

theorem names_place (ht : ts.Has t) (key : String) : (ts.place t key).1.names t =
    if key ∈ ts.names t then ts.names t else ts.names t ++ [key] := by
  unfold place
  cases hi : ts.indexOf? t key with
  | some i =>
    have hmem : key ∈ ts.names t := by
      by_contra hmem
      rw [indexOf?_eq_none_iff.2 hmem] at hi
      cases hi
    simp only [if_pos hmem]
  | none =>
    have hget : ts.tables[t]? = some (ts.names t) := by
      rw [names, List.getElem?_eq_getElem ht, Option.getD_some]
    simp only [if_neg (indexOf?_eq_none_iff.1 hi)]
    rw [names, List.getElem?_modify_eq, hget]
    rfl

/-- A name that has been placed is found at its position. -/
theorem indexOf?_place (ht : ts.Has t) (key : String) :
    (ts.place t key).1.indexOf? t key = some (ts.place t key).2 := by
  cases hi : ts.indexOf? t key with
  | some i =>
    have hplace : ts.place t key = (ts, i) := by rw [place, hi]
    rw [hplace, hi]
  | none =>
    have hnew : key ∉ ts.names t := indexOf?_eq_none_iff.1 hi
    have hposition : (ts.place t key).2 = (ts.names t).length := by rw [place, hi]
    have hfirst : (ts.names t).idxOf? key = none := List.idxOf?_eq_none_iff.2 hnew
    rw [indexOf?, names_place ht, if_neg hnew, hposition, idxOf?_append, hfirst]
    simp [List.idxOf?_cons]

/-! ## Growing -/

/-- Whether a table has only been added to, and holds no name twice if it held none twice. -/
structure Grows (t : TableId) (ts ts' : NameTables) : Prop where
  has : ts.Has t → ts'.Has t
  names : ts.names t <+: ts'.names t
  nodup : (ts.names t).Nodup → (ts'.names t).Nodup

theorem Grows.refl (t : TableId) (ts : NameTables) : Grows t ts ts := ⟨id, List.prefix_refl _, id⟩

theorem Grows.trans (h : Grows t ts ts') (h' : Grows t ts' ts'') : Grows t ts ts'' :=
  ⟨fun ht => h'.has (h.has ht), h.names.trans h'.names, fun hnodup => h'.nodup (h.nodup hnodup)⟩

/-- Whether names have only been added behind those that tables hold, each once and none of those that
its table held, and tables only behind those that there were. -/
def Extends (ts ts' : NameTables) : Prop :=
  ∀ (t : TableId) (names : List String), ts.tables[t]? = some names →
    ∃ added : List String, ts'.tables[t]? = some (names ++ added) ∧ added.Nodup ∧ ∀ name ∈ added, name ∉ names

theorem Extends.refl (ts : NameTables) : ts.Extends ts := fun _ names h => ⟨[], by simpa using h, by simp⟩

theorem Extends.trans (h : ts.Extends ts') (h' : ts'.Extends ts'') : ts.Extends ts'' := by
  intro t names ht
  obtain ⟨added, ht', hadded, hnew⟩ := h t names ht
  obtain ⟨more, ht'', hmore, hfresh⟩ := h' t _ ht'
  refine ⟨added ++ more, by rw [ht'', List.append_assoc], List.nodup_append.2 ⟨hadded, hmore, ?_⟩, ?_⟩
  · rintro a ha b hb rfl
    exact hfresh a hb (List.mem_append_right _ ha)
  · intro name hname
    rcases List.mem_append.1 hname with h | h
    · exact hnew name h
    · exact fun hold => hfresh name h (List.mem_append_left _ hold)

theorem extends_create (ts : NameTables) (names : List String) : ts.Extends (ts.create names).1 := by
  intro t names ht
  refine ⟨[], ?_, by simp⟩
  rw [List.append_nil, ← ht]
  exact List.getElem?_append_left (List.getElem?_eq_some_iff.1 ht).1

theorem extends_place (ts : NameTables) (t : TableId) (key : String) : ts.Extends (ts.place t key).1 := by
  unfold place
  cases hi : ts.indexOf? t key with
  | some i => exact .refl ts
  | none =>
    intro t' names ht'
    simp only [List.getElem?_modify, ht', Option.map_eq_map, Option.map_some]
    split
    · next h =>
      subst h
      refine ⟨[key], rfl, List.nodup_singleton _, fun name hname => ?_⟩
      rw [List.mem_singleton.1 hname]
      rwa [indexOf?_eq_none_iff, NameTables.names, ht'] at hi
    · exact ⟨[], by simp, by simp⟩

theorem Extends.grows (h : ts.Extends ts') (ht : ts.Has t) : Grows t ts ts' := by
  obtain ⟨added, ht', hadded, hnew⟩ := h t _ (List.getElem?_eq_getElem ht)
  have hnames : ts.names t = ts.tables[t] := by
    rw [NameTables.names, List.getElem?_eq_getElem ht, Option.getD_some]
  have hnames' : ts'.names t = ts.names t ++ added := by rw [hnames, NameTables.names, ht', Option.getD_some]
  refine ⟨fun _ => (List.getElem?_eq_some_iff.1 ht').1, ?_, fun hnodup => ?_⟩
  · rw [hnames']
    exact List.prefix_append _ _
  · rw [hnames']
    refine List.nodup_append.2 ⟨hnodup, hadded, ?_⟩
    rintro a ha b hb rfl
    exact hnew a hb (hnames ▸ ha)

theorem grows_place (ht : ts.Has t) (key : String) : Grows t ts (ts.place t key).1 :=
  (extends_place ts t key).grows ht

/-- A name keeps its position. -/
theorem Grows.indexOf? (h : Grows t ts ts') (hi : ts.indexOf? t name = some i) :
    ts'.indexOf? t name = some i := by
  obtain ⟨more, hmore⟩ := h.names
  have hi : (ts.names t).idxOf? name = some i := hi
  rw [NameTables.indexOf?, ← hmore, idxOf?_append, hi, Option.some_or]

/-- A name that is new stands behind all that were there. -/
theorem Grows.le_of_indexOf? (h : Grows t ts ts') (hnew : ts.indexOf? t name = none)
    (hi : ts'.indexOf? t name = some i) : (ts.names t).length ≤ i := by
  obtain ⟨more, hmore⟩ := h.names
  have hnew : (ts.names t).idxOf? name = none := hnew
  rw [NameTables.indexOf?, ← hmore, idxOf?_append, hnew, Option.none_or, Option.map_eq_some_iff] at hi
  obtain ⟨j, -, rfl⟩ := hi
  exact Nat.le_add_left _ _

end Docbase.NameTables
