/-
Which documents satisfy a predicate, and when a predicate is refused. Either all
documents of a collection can be tested, and each satisfies the predicate or not
(`Collection.accepts`), or the predicate is refused with the error that one of them
was met with: `Collection.judge_cases`.
-/
import Docbase.Proofs.Matching.Faults
import Docbase.Proofs.Store.Collection

namespace Docbase

namespace Collection

variable {c : Collection} {p : Option Predicate} {d : Document}

theorem verdict_isOfTest {e : Error} (h : c.verdict p d = .error e) : e.IsOfTest := by
  cases p with
  | none => cases h
  | some p => exact Predicate.eval_isOfTest h

/-- Whether a document satisfies a predicate of a collection; one that cannot be tested does not. -/
def accepts (c : Collection) (p : Option Predicate) (d : Document) : Bool :=
  match c.verdict p d with
  | .error _ => false
  | .ok answer => answer

theorem accepts_of_ok {answer : Bool} (h : c.verdict p d = .ok answer) : c.accepts p d = answer := by
  rw [accepts, h]

/-- Tests documents one after the other. -/
def judgeAll (c : Collection) (p : Option Predicate) (ds : List Document) : Result (List (Document × Bool)) :=
  ds.mapM fun d => (c.verdict p d).map fun answer => (d, answer)

theorem judge_eq (c : Collection) (p : Option Predicate) : c.judge p = c.judgeAll p c.documents := by
  cases p <;> rfl

theorem judge_of_verdicts {f : Document → Bool} (h : ∀ d ∈ c.documents, c.verdict p d = .ok (f d)) :
    c.judge p = .ok (c.documents.map fun d => (d, f d)) := by
  rw [judge_eq_ok_iff, List.forall₂_map_right_iff, List.forall₂_same]
  exact fun d hd => ⟨rfl, h d hd⟩

/-- A predicate is refused, by one of the documents, or every document satisfies it or not. -/
theorem judge_cases (c : Collection) (p : Option Predicate) :
    (∃ e, c.judge p = .error e ∧ ∃ d ∈ c.documents, c.verdict p d = .error e) ∨
      (c.judge p = .ok (c.documents.map fun d => (d, c.accepts p d)) ∧
        ∀ d ∈ c.documents, c.verdict p d = .ok (c.accepts p d)) := by
  rcases mapM_cases (fun d => (c.verdict p d).map fun answer => (d, answer)) c.documents with
    ⟨e, hjudge, d, hd, herror⟩ | ⟨judged, -, hall⟩
  · refine .inl ⟨e, by rw [judge_eq, judgeAll, hjudge], d, hd, ?_⟩
    cases hverdict : c.verdict p d with
    | error e' => rw [hverdict] at herror; cases herror; rfl
    | ok answer => rw [hverdict] at herror; cases herror
  · have hverdicts : ∀ d ∈ c.documents, c.verdict p d = .ok (c.accepts p d) := by
      intro d hd
      obtain ⟨_, hd⟩ := hall d hd
      obtain ⟨answer, hverdict, -⟩ := map_eq_ok_iff.1 hd
      rw [hverdict, accepts_of_ok hverdict]
    exact .inr ⟨judge_of_verdicts hverdicts, hverdicts⟩

/-! ## Documents that have been judged -/

variable {f : Document → Bool}

theorem matching_of_judge (h : c.judge p = .ok (c.documents.map fun d => (d, f d))) :
    c.matching p = .ok (c.documents.filter f) := by
  rw [matching, h, ok_map, List.filter_map, List.map_map]
  simp [Function.comp_def]

theorem deleteMany_of_judge (h : c.judge p = .ok (c.documents.map fun d => (d, f d))) :
    c.deleteMany p =
      .ok ({ c with documents := c.documents.filter fun d => !f d }, (c.documents.filter f).length) := by
  rw [deleteMany, h, ok_map, List.filter_map, List.filter_map, List.map_map]
  simp [Function.comp_def]

theorem splitMatch?_of_filter_nil {ds : List Document} (h : ds.filter f = []) :
    splitMatch? (ds.map fun d => (d, f d)) = none := by
  rw [splitMatch?_eq_none_iff, List.forall_mem_map]
  simpa using List.filter_eq_nil_iff.1 h

/-- The first document that satisfies a predicate, and the documents around it. -/
theorem splitMatch?_of_filter_cons {ds rest : List Document} {found : Document} (h : ds.filter f = found :: rest) :
    ∃ before after, ds = before ++ found :: after ∧ (∀ d ∈ before, f d = false) ∧
      splitMatch? (ds.map fun d => (d, f d)) = some (before, found, after) := by
  obtain ⟨before, after, hdocs, hbefore, hfound, -⟩ := List.filter_eq_cons_iff.1 h
  have hbefore : ∀ d ∈ before, f d = false := fun d hd => Bool.eq_false_iff.2 (hbefore d hd)
  exact ⟨before, after, hdocs, hbefore, splitMatch?_map_eq_some_iff.2 ⟨hdocs, hfound, hbefore⟩⟩

end Collection
end Docbase
