/-
What a query excludes does not show in its pages. A selection that excludes a field and is
not mixed drops it from every document, and one that is mixed is refused whatever the
documents hold (`Selection.apply_erase`). So a page is read alike from documents that agree
but for the field: `Repository.project_of_excludes`.
-/
import Docbase.Proofs.Repository.Paging

namespace Docbase

variable {f : String}

namespace Selection

variable {s : Selection}

theorem keeps_of_excluded (hid : f ≠ idField) (hexcluded : ⟨f, false⟩ ∈ s) (hmixed : s.isMixed = false) :
    s.keeps f = false := by
  have hothers : ⟨f, false⟩ ∈ s.others := List.mem_filter.2 ⟨hexcluded, decide_eq_true hid⟩
  have hexclusion : s.others.any (fun item => !item.included) = true := List.any_eq_true.2 ⟨_, hothers, rfl⟩
  have hinclusion : s.isInclusion = false := by
    rw [isMixed, hexclusion, Bool.and_true] at hmixed
    rw [isInclusion, hmixed, List.isEmpty_eq_false_iff.2 (List.ne_nil_of_mem hothers)]
    rfl
  have hlisted : s.lists f = true := List.any_eq_true.2 ⟨_, hothers, decide_eq_true rfl⟩
  rw [keeps, if_neg hid, hinclusion, hlisted]
  rfl

/-- Without a field that is excluded, a document looks the same. -/
theorem apply_erase (hid : f ≠ idField) (hexcluded : ⟨f, false⟩ ∈ s) (d : Document) :
    s.apply (Fields.erase d f) = s.apply d := by
  unfold apply
  split
  · next hempty =>
    rw [List.isEmpty_iff.1 hempty] at hexcluded
    cases hexcluded
  · split
    · rfl
    · next hmixed =>
      have hkeeps := keeps_of_excluded hid hexcluded (Bool.eq_false_iff.2 hmixed)
      rw [Fields.erase, List.filter_filter]
      congr 1
      refine List.filter_congr fun p _ => ?_
      by_cases hp : p.1 = f
      · simp [hp, hkeeps]
      · simp [hp]

theorem mapM_apply_erase (hid : f ≠ idField) (hexcluded : ⟨f, false⟩ ∈ s) (ds : List Document) :
    (ds.map (Fields.erase · f)).mapM s.apply = ds.mapM s.apply := by
  rw [List.mapM_map]
  exact congrArg (ds.mapM ·) (funext (apply_erase hid hexcluded))

end Selection

theorem Query.window_map {α β : Type} (q : Query) (g : α → β) (xs : List α) :
    q.window (xs.map g) = (q.window xs).map g := by
  unfold window
  dsimp only
  split
  · rw [List.map_drop]
  · rw [List.map_take, List.map_drop]

namespace ProjectionQuery

variable {q : ProjectionQuery}

def Excludes (q : ProjectionQuery) (f : String) : Prop := ⟨f, false⟩ ∈ q.fields

theorem excludes_select (q : ProjectionQuery) (hid : f ≠ idField) (hlogical : f ≠ logicalIdField) :
    (q.select f false).Excludes f := by
  rw [select, if_neg (by simp [hid, hlogical])]
  exact List.mem_append_right _ (List.mem_singleton_self _)

/-! Once excluded, a field stays so, whatever else is asked for. -/

theorem Excludes.select (h : q.Excludes f) (field : String) (included : Bool) :
    (q.select field included).Excludes f := by
  unfold ProjectionQuery.select
  split
  · exact h
  · exact List.mem_append_left _ h

theorem Excludes.withPair (h : q.Excludes f) (key value : String) : (q.withPair key value).Excludes f := by
  unfold ProjectionQuery.withPair
  split
  · split
    · exact h
    · split
      · exact h
      · exact h.select key _
  · exact h.select key _

end ProjectionQuery

namespace Repository

variable {α : Type} {r : Repository α} {q : ProjectionQuery} {s t : Server}

theorem readPage_of_excludes (hid : f ≠ idField) (hexcludes : q.Excludes f) {count : Nat}
    (hsame : (r.documents s).map (Fields.erase · f) = (r.documents t).map (Fields.erase · f)) :
    (r.readPage q count s).1 = (r.readPage q count t).1 := by
  have hexcluded : ⟨f, false⟩ ∈ q.selection := List.mem_cons_of_mem _ hexcludes
  have hread (s : Server) : ((q.storeQuery (q.request.window count)).window (r.documents s)).mapM q.selection.apply =
      ((q.storeQuery (q.request.window count)).window ((r.documents s).map (Fields.erase · f))).mapM
        q.selection.apply := by
    rw [Query.window_map, Selection.mapM_apply_erase hid hexcluded]
  rw [readPage_eq, readPage_eq, hread s, hread t, hsame]

/-- **Excluded fields are not observable.** Where two servers hold the same documents but for one field, a
query that excludes this field has the same outcome on both, an error or a page. -/
theorem project_of_excludes (hid : f ≠ idField) (hexcludes : q.Excludes f)
    (hsame : (r.documents s).map (Fields.erase · f) = (r.documents t).map (Fields.erase · f)) :
    (r.project q s).1 = (r.project q t).1 := by
  have hcount : (r.documents s).length = (r.documents t).length := by
    simpa using congrArg List.length hsame
  rw [project_eq, project_eq, hcount, Binding.run, Binding.run]
  split
  · exact readPage_of_excludes hid hexcludes hsame
  · rfl

/-- Two slots. On the second server one has no value, and the other has it in another place. -/
theorem project_of_excludes_of_two_slots :
    let server (ds : List Document) : Server := { Server.empty with store := ⟨[("Slot", ⟨ds, []⟩)]⟩ }
    let s := server [[("_id", .string "x"), ("value", .string "a")],
      [("_id", .string "y"), ("value", .string "b"), ("seen", .bool true)]]
    let t := server [[("_id", .string "x")], [("value", .null), ("_id", .string "y"), ("seen", .bool true)]]
    let q := ((ProjectionQuery.empty.select "value" false).withPair "@PageSize" "1").select "seen" false
    q.Excludes "value" ∧ (∃ page, (slots.project q s).1 = .ok page) ∧
      (slots.project q s).1 = (slots.project q t).1 := by
  intro server s t q
  have hvalue : (ProjectionQuery.empty.select "value" false).Excludes "value" :=
    ProjectionQuery.excludes_select _ (by decide) (by decide)
  have hexcludes : q.Excludes "value" := (hvalue.withPair "@PageSize" "1").select "seen" false
  have hsame : (slots.documents s).map (Fields.erase · "value") =
      (slots.documents t).map (Fields.erase · "value") := by rfl
  have hmixed : q.selection.isMixed = false := by rfl
  have hpage : ∃ page, (slots.project q s).1 = .ok page :=
    ⟨_, congrArg Prod.fst (project_eq_ok_iff.2 ⟨rfl, readPage_eq_ok_iff.2 ⟨fun _ => hmixed, rfl, rfl⟩⟩)⟩
  exact ⟨hexcludes, hpage, project_of_excludes (by decide) hexcludes hsame⟩

end Repository
end Docbase
