/-
Pages of a collection that changes while they are read. The documents are counted
in one step and read in another, and between the two other clients may write
(`Repository.projectAmid`). A page says how many documents it holds at most from the
count. That is kept by a limit, which is only sent if the documents that were counted
span more than one page; if not, everything is read that is there by then
(`projectAmid_fits_iff`). `projectAmid_after_insert` is a page of one document that
holds two.
-/
import Docbase.Proofs.Repository.Paging
import Docbase.Proofs.Store.Reachable

namespace Docbase.Repository

open Binding

variable {α : Type} {r : Repository α} {s t : Server} {q : ProjectionQuery} {p : Page}
  {calls : List Server.Call}

/-- Reads a page, with calls of other clients between its two steps. -/
def projectAmid (r : Repository α) (q : ProjectionQuery) (calls : List Server.Call) : Server.Step Page :=
  r.binding.run (andThen (Server.count r.binding.collection none) fun count s =>
    r.readPage q count (calls.foldl Server.Call.run s))

theorem projectAmid_nil (r : Repository α) (q : ProjectionQuery) : r.projectAmid q [] = r.project q := rfl

theorem projectAmid_eq_ok_iff : r.projectAmid q calls s = (.ok p, t) ↔ r.binding.bound = true ∧
    r.readPage q (r.documents s).length (calls.foldl Server.Call.run s) = (.ok p, t) := by
  rw [projectAmid, run_eq_ok_iff]
  refine and_congr_right fun _ => ?_
  rw [andThen, count_documents]

/-- **A page that others write to holds no more documents than it says iff a limit was sent or no
documents were added**: the documents that were counted span more than one page, or there are no more
of them when they are read. Otherwise the page holds all documents that are there when they are read,
and says that it holds as many as were counted. -/
theorem projectAmid_fits_iff (h : r.projectAmid q calls s = (.ok p, t)) :
    t = calls.foldl Server.Call.run s ∧
      (p.result.length ≤ p.pageSize ↔
        SpansPages q (r.documents s).length ∨ (r.documents t).length ≤ (r.documents s).length) ∧
      (¬SpansPages q (r.documents s).length →
        p.pageSize = (r.documents s).length ∧ p.result.length = (r.documents t).length) := by
  obtain ⟨-, hread⟩ := projectAmid_eq_ok_iff.1 h
  have ht : t = calls.foldl Server.Call.run s := (readPage_eq_ok_iff.1 hread).2.2
  rw [← ht] at hread
  refine ⟨ht, ?_, readPage_of_not_spansPages hread⟩
  by_cases hspans : SpansPages q (r.documents s).length
  · exact iff_of_true (readPage_of_spansPages hread hspans) (.inl hspans)
  · obtain ⟨hsize, hlength⟩ := readPage_of_not_spansPages hread hspans
    rw [hsize, hlength]
    simp only [hspans, false_or]

/-- Three slots are counted and one is inserted; a page of two slots holds two. -/
theorem projectAmid_fits_of_three_slots :
    let slot (id : String) : Server.Call :=
      .insert "Slot" ⟨[("_id", .string id), ("value", .string "a")], by rfl⟩
    let s := [slot "x", slot "y", slot "z"].foldl Server.Call.run .empty
    let q := ProjectionQuery.empty.withPageSize 2
    s.Reachable ∧ SpansPages q (slots.documents s).length ∧
      ∃ p, (slots.projectAmid q [slot "w"] s).1 = .ok p ∧ p.result.length ≤ p.pageSize := by
  intro slot s q
  have hs : s.Reachable := (Server.Reachable.init rfl).calls _
  have hspans : SpansPages q (slots.documents s).length := by
    have hlength : (slots.documents s).length = 3 := by rfl
    rw [hlength]
    exact ⟨by decide, by decide⟩
  have hread : ∃ p, (slots.projectAmid q [slot "w"] s).1 = .ok p := ⟨_, by rfl⟩
  obtain ⟨p, hp⟩ := hread
  exact ⟨hs, hspans, p, hp, (projectAmid_fits_iff (Prod.ext hp rfl)).2.1.2 (.inl hspans)⟩

/-- One slot is counted and another is inserted; a page of one slot holds two. -/
theorem projectAmid_after_insert :
    let slot (id : String) : Server.Call :=
      .insert "Slot" ⟨[("_id", .string id), ("value", .string "a")], by rfl⟩
    let s := [slot "x"].foldl Server.Call.run .empty
    let q := ProjectionQuery.empty.withPageSize 1
    s.Reachable ∧ ∃ p, (slots.projectAmid q [slot "y"] s).1 = .ok p ∧ p.pageSize = 1 ∧
      p.result.length = 2 :=
  ⟨(Server.Reachable.init rfl).calls _, _, by rfl, by rfl, by rfl⟩

end Docbase.Repository
