/-
How selections address fields, against how predicates and sorts do. A lookup reads `Id` as `_id`
and follows dots from the first segment of a name on, its root; a selection compares whole names
with top-level keys. So a lookup after a selection sees what it saw before if the root is kept, and else
nothing (`lookup?_filter`), and a selection of one field by its name keeps or drops this field exactly
where the name is its own root, or where `_id` is kept anyway (`select_one_iff`).
-/
import Docbase.Proofs.Fields
import Docbase.Proofs.Store.Find
import Mathlib.Data.List.TakeWhile

namespace Docbase

/-- The top-level key that the lookup of a field starts from. -/
def rootKey (field : String) : String :=
  String.ofList ((storedField field).toList.takeWhile fun c => c ≠ '.')

theorem Text.splitAll_eq_cons (sep : Char) (cs : List Char) :
    ∃ rest, splitAll sep cs = (cs.takeWhile fun c => c ≠ sep) :: rest := by
  induction cs with
  | nil => exact ⟨[], rfl⟩
  | cons c cs ih =>
    obtain ⟨rest, hrest⟩ := ih
    by_cases hc : c = sep
    · exact ⟨splitAll sep cs, by simp [splitAll, hc]⟩
    · exact ⟨rest, by simp [splitAll, hc, hrest]⟩

theorem fieldPath_eq_cons (field : String) : ∃ rest, fieldPath field = rootKey field :: rest := by
  obtain ⟨rest, hrest⟩ := Text.splitAll_eq_cons '.' (storedField field).toList
  exact ⟨rest.map String.ofList, by rw [fieldPath, hrest]; rfl⟩

/-- A name is its own root iff it has no dots and is stored as it is. -/
theorem rootKey_eq_self_iff {field : String} :
    rootKey field = field ↔ '.' ∉ field.toList ∧ field ≠ logicalIdField := by
  constructor
  · intro h
    constructor
    · intro hdot
      rw [← h, rootKey, String.toList_ofList] at hdot
      simpa using List.mem_takeWhile_imp hdot
    · rintro rfl
      exact absurd h (by decide)
  · rintro ⟨hdot, hlogical⟩
    rw [rootKey, storedField, if_neg hlogical, List.takeWhile_eq_self_iff.2, String.ofList_toList]
    intro c hc
    exact decide_eq_true fun heq => hdot (heq ▸ hc)

theorem rootKey_of_dotless {field : String} (h : '.' ∉ field.toList) :
    rootKey field = idField ∨ rootKey field = field := by
  by_cases hlogical : field = logicalIdField
  · subst hlogical
    exact .inl (by decide)
  · exact .inr (rootKey_eq_self_iff.2 ⟨h, hlogical⟩)

namespace Document

variable {d : Document} {field : String}

/-- What a path leads to depends on its first field only. -/
theorem getPath?_congr {d e : Document} {key : String} (h : e.get? key = d.get? key) (rest : List String) :
    e.getPath? (key :: rest) = d.getPath? (key :: rest) := by
  cases rest with
  | nil => exact h
  | cons next rest => simp only [getPath?, h]

theorem getPath?_eq_none {key : String} (h : d.get? key = none) (rest : List String) :
    d.getPath? (key :: rest) = none := by
  cases rest with
  | nil => exact h
  | cons next rest => simp only [getPath?, h]

/-- Where some top-level fields are kept, those fields are found that are reached through one of them. -/
theorem lookup?_filter (keeps : String → Bool) (d : Document) (field : String) :
    lookup? (d.filter fun p => keeps p.1) field = if keeps (rootKey field) then d.lookup? field else none := by
  obtain ⟨rest, hpath⟩ := fieldPath_eq_cons field
  have hroot := Fields.get?_filter keeps d (rootKey field)
  unfold lookup?
  rw [hpath]
  split
  · next hkeeps =>
    rw [if_pos hkeeps] at hroot
    exact getPath?_congr hroot rest
  · next hkeeps =>
    rw [if_neg hkeeps] at hroot
    exact getPath?_eq_none hroot rest

end Document

namespace Selection

variable {field : String}

/-- A selection of one field is not mixed. -/
theorem apply_single (item : FieldSelection) (d : Document) : apply [item] d = .ok (cut [item] d) := by
  have hmixed : isMixed [item] = false := by
    cases hincluded : item.included <;> by_cases hid : item.field = idField <;>
      simp [isMixed, others, hincluded, hid]
  rw [apply_of_ne_nil (List.cons_ne_nil item []), hmixed, if_neg Bool.false_ne_true]

/-- A field that is included on its own comes with `_id`. -/
theorem keeps_included (field key : String) :
    keeps [⟨field, true⟩] key = decide (key = idField ∨ key = field) := by
  by_cases hid : field = idField
  · by_cases hkey : key = idField <;> simp [keeps, keepsId, isInclusion, lists, others, hid, hkey]
  · by_cases hkey : key = idField <;>
      simp [keeps, keepsId, isInclusion, lists, others, hid, hkey, eq_comm]

theorem keeps_excluded (field key : String) : keeps [⟨field, false⟩] key = decide (key ≠ field) := by
  by_cases hid : field = idField
  · by_cases hkey : key = idField <;> simp [keeps, keepsId, isInclusion, lists, others, hid, hkey]
  · by_cases hkey : key = idField
    · simp [keeps, keepsId, hid, hkey, Ne.symm hid]
    · simp [keeps, keepsId, isInclusion, lists, others, hid, hkey, eq_comm]

/-- **Where a selection addresses a field as a lookup does.** A document of which a field alone is
included gives the same for it as the whole document iff the name has no dots, or its root is `_id`, or
there is nothing to give; and one of which it alone is excluded gives nothing for it iff the name has
no dots and is not the logical name of `_id`, or there was nothing before. -/
theorem select_one_iff (d : Document) (field : String) :
    ∃ included excluded, apply [⟨field, true⟩] d = .ok included ∧ apply [⟨field, false⟩] d = .ok excluded ∧
      (included.lookup? field = d.lookup? field ↔
        '.' ∉ field.toList ∨ rootKey field = idField ∨ d.lookup? field = none) ∧
      (excluded.lookup? field = none ↔
        ('.' ∉ field.toList ∧ field ≠ logicalIdField) ∨ d.lookup? field = none) := by
  refine ⟨_, _, apply_single _ d, apply_single _ d, ?_, ?_⟩
  · rw [cut, Document.lookup?_filter, keeps_included]
    by_cases hroot : rootKey field = idField ∨ rootKey field = field
    · rw [if_pos (decide_eq_true hroot), eq_self, true_iff]
      exact hroot.elim (fun hid => .inr (.inl hid)) fun hself => .inl (rootKey_eq_self_iff.1 hself).1
    · rw [if_neg (by simpa using hroot)]
      have hdot : '.' ∈ field.toList := by
        by_contra hdot
        exact hroot (rootKey_of_dotless hdot)
      have hid : rootKey field ≠ idField := fun hid => hroot (.inl hid)
      simp [hdot, hid, eq_comm]
  · rw [cut, Document.lookup?_filter, keeps_excluded, ← rootKey_eq_self_iff]
    by_cases hself : rootKey field = field
    · simp [hself]
    · simp [hself]

/-- The logical name of `_id` excludes nothing, and a dotted name includes nothing but `_id`. -/
theorem select_one_of_nested_document :
    let d : Document := [("_id", .string "x"), ("a", .document [("b", .int32 1)])]
    apply [⟨"Id", false⟩] d = .ok d ∧ d.lookup? "Id" = some (.string "x") ∧
      apply [⟨"a.b", true⟩] d = .ok [("_id", .string "x")] ∧ d.lookup? "a.b" = some (.int32 1) ∧
      Document.lookup? [("_id", .string "x")] "a.b" = none :=
  ⟨rfl, rfl, rfl, rfl, rfl⟩

end Selection
end Docbase
