/-
Operations that take a predicate, as they pass over a collection. Finding collects
documents in one loop (`Collection.scan`), counting and all writes collect positions
in another (`Collection.scanPositions`), and the writes then replace and remove by
position. Both loops end at the first document that cannot be tested.

Each operation is the one that answers from all documents at once (`findByScan_eq`,
`countByScan_eq` and the theorems on `atPositions`). So all of them see the same
documents: `predicates_agree`.
-/
import Docbase.Numeric.Integer
import Docbase.Proofs.Store.Find
import Docbase.Proofs.Store.InPlace
import Docbase.Proofs.Store.Update
import Docbase.Proofs.Store.Verdict

namespace Docbase

namespace Collection

variable {c : Collection} {p : Option Predicate}

/-! ## Loops -/

/-- The documents that satisfy a predicate, behind those found so far. -/
def scan (c : Collection) (p : Option Predicate) (found : List Document) : List Document → Result (List Document)
  | [] => .ok found
  | d :: ds =>
    match c.verdict p d with
    | .error e => .error e
    | .ok answer => c.scan p (if answer then found ++ [d] else found) ds

/-- The positions of the documents that satisfy a predicate, the first document being at `i`, behind
the positions found so far. -/
def scanPositions (c : Collection) (p : Option Predicate) (i : Nat) (found : List Nat) :
    List Document → Result (List Nat)
  | [] => .ok found
  | d :: ds =>
    match c.verdict p d with
    | .error e => .error e
    | .ok answer => c.scanPositions p (i + 1) (if answer then found ++ [i] else found) ds

theorem judgeAll_cons (c : Collection) (p : Option Predicate) (d : Document) (ds : List Document) :
    c.judgeAll p (d :: ds) =
      match c.verdict p d with
      | .error e => .error e
      | .ok answer => (c.judgeAll p ds).map fun judged => (d, answer) :: judged := by
  rw [judgeAll, List.mapM_cons]
  cases c.verdict p d with
  | error e => rfl
  | ok answer =>
    simp only [ok_map, ok_bind]
    rw [← judgeAll]
    cases c.judgeAll p ds <;> rfl

theorem scan_eq (c : Collection) (p : Option Predicate) (found ds : List Document) :
    c.scan p found ds = (c.judgeAll p ds).map fun judged => found ++ (judged.filter Prod.snd).map Prod.fst := by
  induction ds generalizing found with
  | nil =>
    show Except.ok found = Except.ok (found ++ [])
    rw [List.append_nil]
  | cons d ds ih =>
    rw [scan, judgeAll_cons]
    cases c.verdict p d with
    | error e => rfl
    | ok answer =>
      dsimp only
      rw [ih]
      cases c.judgeAll p ds with
      | error e => rfl
      | ok judged => cases answer <;> simp

theorem scanPositions_eq (c : Collection) (p : Option Predicate) (i : Nat) (found : List Nat) (ds : List Document) :
    c.scanPositions p i found ds = (c.judgeAll p ds).map fun judged => found ++ positions i judged := by
  induction ds generalizing i found with
  | nil =>
    show Except.ok found = Except.ok (found ++ [])
    rw [List.append_nil]
  | cons d ds ih =>
    rw [scanPositions, judgeAll_cons]
    cases c.verdict p d with
    | error e => rfl
    | ok answer =>
      dsimp only
      rw [ih]
      cases c.judgeAll p ds with
      | error e => rfl
      | ok judged => cases answer <;> simp [positions]

theorem scan_documents (c : Collection) (p : Option Predicate) : c.scan p [] c.documents = c.matching p := by
  rw [scan_eq, matching, judge_eq]
  rfl

theorem scanPositions_documents (c : Collection) (p : Option Predicate) :
    c.scanPositions p 0 [] c.documents = (c.judge p).map (positions 0) := by
  rw [scanPositions_eq, judge_eq]
  rfl

end Collection

namespace Store

open Collection

/-! ## Passes -/

def findByScan (name : String) (q : Query) (s : Store) : Result (List Document) :=
  match s.get? name with
  | none => .ok []
  | some c =>
    match c.scan q.filter [] c.documents with
    | .error e => .error e
    | .ok ds => (q.window (arrange q.sort ds)).mapM q.selection.apply

def countByScan (name : String) (p : Option Predicate) (s : Store) : Result Nat :=
  match s.get? name with
  | none => .ok 0
  | some c => (c.scanPositions p 0 [] c.documents).map List.length

/-- A write at the positions of the documents that satisfy a predicate. -/
def atPositions (name : String) (p : Option Predicate) (write : Collection → List Nat → Edit Nat) : Edit Nat :=
  fun s =>
    match s.get? name with
    | none => (.ok 0, s)
    | some c =>
      match c.scanPositions p 0 [] c.documents with
      | .error e => (.error e, s)
      | .ok is => write c is s

/-- Removes the document at the first of some positions. -/
def removeFirst (name : String) (c : Collection) (is : List Nat) : Edit Nat := fun s =>
  match is with
  | [] => (.ok 0, s)
  | i :: _ => (.ok 1, s.put name { c with documents := c.documents.eraseIdx i })

/-- Removes the documents at some positions, the last one first. -/
def removeEach (name : String) (c : Collection) (is : List Nat) : Edit Nat := fun s =>
  (.ok is.length, s.put name { c with documents := removeAt c.documents is })

/-- Replaces the document at the first of some positions. -/
def replaceFirst (name : String) (d : Document) (c : Collection) (is : List Nat) : Edit Nat := fun s =>
  match is with
  | [] => (.ok 0, s)
  | i :: _ =>
    match replacement (c.documents.getD i []) d with
    | .error e => (.error e, s)
    | .ok d =>
      match checkUnique name c.indexes d (c.documents.eraseIdx i) with
      | .error e => (.error e, s)
      | .ok _ => (.ok 1, s.put name { c with documents := c.documents.set i d })

theorem findByScan_eq (name : String) (q : Query) (s : Store) : findByScan name q s = s.find name q := by
  unfold findByScan Store.find
  cases s.get? name with
  | none => rfl
  | some c =>
    simp only [scan_documents]
    rfl

theorem countByScan_eq (name : String) (p : Option Predicate) (s : Store) :
    countByScan name p s = s.count name p := by
  unfold countByScan Store.count
  cases s.get? name with
  | none => rfl
  | some c =>
    simp only [scanPositions_documents, Collection.count, matching]
    cases c.judge p with
    | error e => rfl
    | ok judged => simp only [ok_map, length_positions, List.length_map]

/-- A write by positions, given what the documents have been judged to be. -/
theorem atPositions_eq (name : String) (p : Option Predicate) (write : Collection → List Nat → Edit Nat) :
    atPositions name p write = fun s =>
      match s.get? name with
      | none => (.ok 0, s)
      | some c =>
        match c.judge p with
        | .error e => (.error e, s)
        | .ok judged => write c (positions 0 judged) s := by
  funext s
  unfold atPositions
  cases s.get? name with
  | none => rfl
  | some c =>
    simp only [scanPositions_documents]
    cases c.judge p <;> rfl

theorem deleteOne_byScan (name : String) (p : Predicate) :
    atPositions name (some p) (removeFirst name) = Edit.whole fun s => s.deleteOne name p := by
  rw [← deleteOneInPlace_eq, atPositions_eq]
  rfl

theorem deleteMany_byScan (name : String) (p : Option Predicate) :
    atPositions name p (removeEach name) = Edit.whole fun s => s.deleteMany name p := by
  rw [← deleteManyInPlace_eq, atPositions_eq]
  rfl

theorem replaceOne_byScan (name : String) (p : Predicate) (d : Document) :
    atPositions name (some p) (replaceFirst name d) = Edit.whole fun s => s.replaceOne name p d := by
  rw [← replaceInPlace_eq, atPositions_eq]
  rfl

/-! ## What a predicate finds -/

/-- All operations with a predicate are refused with one error. -/
structure Refuses (s : Store) (name : String) (p : Predicate) (e : Error) : Prop where
  find : s.find name { Query.all with filter := some p } = .error e
  count : s.count name (some p) = .error e
  deleteOne : s.deleteOne name p = .error e
  deleteMany : s.deleteMany name (some p) = .error e
  replaceOne (d : Document) : s.replaceOne name p d = .error e

/-- What becomes of replacing `found`, which stands between other documents, with `d`. -/
inductive Replaces (s : Store) (name : String) (before : List Document) (found : Document)
    (after : List Document) (d : Document) : Result (Store × Nat) → Prop where
  | idChanged {id other : Value} (hid : found.get? idField = some id) (hother : d.get? idField = some other)
      (hne : other.equal id = false) : Replaces s name before found after d (.error (.store .idChanged))
  | collides {d' other : Document} (hd : replacement found d = .ok d') (hmem : other ∈ before ++ after)
      (hcollides : Collection.collides (s.collection name).indexes d' other = true) :
      Replaces s name before found after d (.error (.alreadyExists (idText d') name))
  | replaced {d' : Document} {t : Store} (hd : replacement found d = .ok d')
      (hapart : ∀ other ∈ before ++ after, Collection.collides (s.collection name).indexes d' other = false)
      (ht : s.Rewritten t name (before ++ d' :: after)) : Replaces s name before found after d (.ok (t, 1))

/-- All operations with a predicate act on the documents that satisfy it. -/
structure ActsOn (s : Store) (name : String) (p : Predicate) (ds : List Document) (matched : Document → Bool) :
    Prop where
  answers : ∀ d ∈ ds, p.eval (s.collection name).textFields d = .ok (matched d)
  find : s.find name { Query.all with filter := some p } = .ok (ds.filter matched)
  count : s.count name (some p) = .ok (ds.filter matched).length
  deleteMany : ∃ t, s.deleteMany name (some p) = .ok (t, (ds.filter matched).length) ∧
    s.Rewritten t name (ds.filter fun d => !matched d) ∧ t.count name (some p) = .ok 0
  none : ds.filter matched = [] →
    s.deleteOne name p = .ok (s, 0) ∧ ∀ d, s.replaceOne name p d = .ok (s, 0)
  first : ∀ found rest, ds.filter matched = found :: rest →
    ∃ before after, ds = before ++ found :: after ∧ (∀ d ∈ before, matched d = false) ∧
      (∃ t, s.deleteOne name p = .ok (t, 1) ∧ s.Rewritten t name (before ++ after)) ∧
      ∀ d, Replaces s name before found after d (s.replaceOne name p d)

/-! ## Agreement -/

variable {s : Store} {name : String} {p : Predicate}

theorem refuses_of_judge {e : Error} (h : (s.collection name).judge (some p) = .error e) : s.Refuses name p e where
  find := by
    rw [find_eq, Collection.find]
    dsimp only
    rw [matching, h]
    rfl
  count := by rw [count_eq, Collection.count, matching, h, error_map, error_map]
  deleteOne := update_of_error rfl (by rw [Collection.deleteOne, h, error_map])
  deleteMany := update_of_error rfl (by rw [Collection.deleteMany, h, error_map])
  replaceOne d := update_of_error rfl (by rw [Collection.replaceOne, h])

/-- Replacing the first document found. -/
theorem replaces_of_judge {judged : List (Document × Bool)} {before after : List Document} {found : Document}
    (hjudge : (s.collection name).judge (some p) = .ok judged)
    (hsplit : splitMatch? judged = some (before, found, after)) (d : Document) :
    Replaces s name before found after d (s.replaceOne name p d) := by
  cases hd : replacement found d with
  | error e =>
    have hreplace : (s.collection name).replaceOne name p d = .error e := by
      simp only [Collection.replaceOne, hjudge, hsplit, hd]
    obtain ⟨id, other, hid, hother, hne, rfl⟩ := replacement_eq_error hd
    rw [Store.replaceOne, update_of_error rfl hreplace]
    exact .idChanged hid hother hne
  | ok d' =>
    by_cases hany : ∃ other ∈ before ++ after, Collection.collides (s.collection name).indexes d' other = true
    · obtain ⟨other, hmem, hcollides⟩ := hany
      have hreplace : (s.collection name).replaceOne name p d = .error (.alreadyExists (idText d') name) := by
        have hcheck := List.any_eq_true.2 ⟨other, hmem, hcollides⟩
        simp only [Collection.replaceOne, hjudge, hsplit, hd, checkUnique, hcheck, if_true, error_map]
      rw [Store.replaceOne, update_of_error rfl hreplace]
      exact .collides hd hmem hcollides
    · have hapart : ∀ other ∈ before ++ after,
          Collection.collides (s.collection name).indexes d' other = false :=
        fun other hmem => Bool.eq_false_iff.2 fun hcollides => hany ⟨other, hmem, hcollides⟩
      have hreplace : (s.collection name).replaceOne name p d =
          .ok ({ s.collection name with documents := before ++ d' :: after }, 1) := by
        simp only [Collection.replaceOne, hjudge, hsplit, hd, checkUnique_eq_ok_iff.2 hapart, ok_map]
      obtain ⟨t, ht, hrewritten⟩ : ∃ t, s.replaceOne name p d = .ok (t, 1) ∧
          s.Rewritten t name (before ++ d' :: after) := update_of_ok rfl hreplace
      rw [ht]
      exact .replaced hd hapart hrewritten

theorem actsOn_of_judge {f : Document → Bool}
    (h : ∀ d ∈ (s.collection name).documents, p.eval (s.collection name).textFields d = .ok (f d)) :
    s.ActsOn name p (s.collection name).documents f := by
  have hjudge : (s.collection name).judge (some p) = .ok ((s.collection name).documents.map fun d => (d, f d)) :=
    judge_of_verdicts h
  refine ⟨h, ?_, ?_, ?_, fun hnone => ?_, fun found rest hfirst => ?_⟩
  · rw [find_eq, Collection.find]
    dsimp only
    rw [matching_of_judge hjudge]
    exact Selection.mapM_apply_nil _
  · rw [count_eq, Collection.count, matching_of_judge hjudge, ok_map]
  · obtain ⟨t, ht, hrewritten⟩ : ∃ t,
        s.deleteMany name (some p) = .ok (t, ((s.collection name).documents.filter f).length) ∧
          s.Rewritten t name ((s.collection name).documents.filter fun d => !f d) :=
      update_of_ok rfl (deleteMany_of_judge hjudge)
    refine ⟨t, ht, hrewritten, ?_⟩
    -- What is left is tested as before, since the indexes are kept.
    have hnone : ∀ d ∈ (t.collection name).documents, (t.collection name).verdict (some p) d = .ok false := by
      rw [hrewritten.1]
      intro d hd
      obtain ⟨hmem, hf⟩ := List.mem_filter.1 hd
      have hanswer := h d hmem
      have hf : f d = false := by simpa using hf
      rwa [hf] at hanswer
    rw [count_eq, Collection.count, matching_of_judge (judge_of_verdicts hnone), ok_map, List.filter_false]
    rfl
  · have hsplit := splitMatch?_of_filter_nil hnone
    refine ⟨update_of_unchanged ?_, fun d => update_of_unchanged ?_⟩
    · rw [Collection.deleteOne, hjudge, ok_map, hsplit]
    · simp only [Collection.replaceOne, hjudge, hsplit]
  · obtain ⟨before, after, hdocs, hbefore, hsplit⟩ := splitMatch?_of_filter_cons hfirst
    refine ⟨before, after, hdocs, hbefore, update_of_ok rfl ?_, replaces_of_judge hjudge hsplit⟩
    rw [Collection.deleteOne, hjudge, ok_map, hsplit]

/-- What a predicate does in a store: it is refused by a document, or acts on those that satisfy it. -/
theorem refuses_or_actsOn (s : Store) (name : String) (p : Predicate) :
    (∃ e, e.IsOfTest ∧ s.Refuses name p e) ∨ ∃ f, s.ActsOn name p (s.collection name).documents f := by
  rcases (s.collection name).judge_cases (some p) with ⟨e, hjudge, d, -, hverdict⟩ | ⟨-, hverdicts⟩
  · exact .inl ⟨e, verdict_isOfTest hverdict, refuses_of_judge hjudge⟩
  · exact .inr ⟨_, actsOn_of_judge hverdicts⟩

/-- Without a predicate, all documents are deleted, and the indexes stay. -/
theorem deleteMany_none (s : Store) (name : String) :
    ∃ t, s.deleteMany name none = .ok (t, (s.collection name).documents.length) ∧ s.Rewritten t name [] := by
  refine update_of_ok rfl ?_
  have hdelete := deleteMany_of_judge (s.collection name).judge_none
  rw [hdelete]
  simp

/-- The count in the statistics of a collection. -/
theorem stats_count (s : Store) (name : String) : Fields.get? (s.stats name) "count" =
    some (.int64 (Int64.ofNat (s.collection name).documents.length)) := by
  unfold stats collection
  cases s.get? name with
  | none => rfl
  | some c => rfl

/-- **All operations that take a predicate see the same documents.** As they pass over a collection,
each in its own loop, they do what they do as one step. A predicate is refused by all of them with one
error, which is met in testing a document; or none of them meets an error in that, and they act on the
same documents. Without a predicate, deleting leaves no documents, and the indexes as they were, and a
count is the one in the statistics. -/
theorem predicates_agree (s : Store) (name : String) :
    ((∀ q, findByScan name q s = s.find name q) ∧ (∀ p, countByScan name p s = s.count name p) ∧
      (∀ p, atPositions name (some p) (removeFirst name) = Edit.whole fun s => s.deleteOne name p) ∧
      (∀ p, atPositions name p (removeEach name) = Edit.whole fun s => s.deleteMany name p) ∧
      ∀ p d, atPositions name (some p) (replaceFirst name d) = Edit.whole fun s => s.replaceOne name p d) ∧
    (∀ p, (∃ e, e.IsOfTest ∧ s.Refuses name p e) ∨ ∃ f, s.ActsOn name p (s.collection name).documents f) ∧
    (∃ t, s.deleteMany name none = .ok (t, (s.collection name).documents.length) ∧ s.Rewritten t name []) ∧
    ∃ n i, s.count name none = .ok n ∧ Fields.get? (s.stats name) "count" = some (.int64 i) ∧
      (n < Integer.int64Limit → i.toInt = n) :=
  ⟨⟨fun q => findByScan_eq name q s, fun p => countByScan_eq name p s, deleteOne_byScan name,
      deleteMany_byScan name, replaceOne_byScan name⟩,
    s.refuses_or_actsOn name, s.deleteMany_none name, _, _,
    (s.count_eq name none).trans (Collection.count_none _), s.stats_count name, Int64.toInt_ofNat_of_lt⟩

/-- Of three notes, two have the tag `b`, one alone and one among others. They are found, counted and
deleted. -/
theorem predicates_agree_of_three_notes :
    let first : Document := [("_id", .int32 1), ("tag", .string "a")]
    let second : Document := [("_id", .int32 2), ("tag", .array [.string "b", .string "c"])]
    let third : Document := [("_id", .int32 3), ("tag", .string "b")]
    let s : Store := ⟨[("notes", ⟨[first, second, third], []⟩)]⟩
    let p := Predicate.eq "tag" (.string "b")
    s.find "notes" { Query.all with filter := some p } = .ok [second, third] ∧
      s.count "notes" (some p) = .ok 2 ∧
      ∃ t, s.deleteMany "notes" (some p) = .ok (t, 2) ∧ s.Rewritten t "notes" [first] := by
  intro first second third s p
  have hcount : s.count "notes" (some p) = .ok 2 := by rfl
  obtain ⟨-, hagree, -⟩ := predicates_agree s "notes"
  rcases hagree p with ⟨e, -, hrefuses⟩ | ⟨f, hacts⟩
  · cases hrefuses.count.symm.trans hcount
  · have hdocs : (s.collection "notes").documents = [first, second, third] := by rfl
    rw [hdocs] at hacts
    have hanswers := hacts.answers
    simp only [List.mem_cons, List.not_mem_nil, or_false, forall_eq_or_imp, forall_eq] at hanswers
    obtain ⟨hf1, hf2, hf3⟩ := hanswers
    have h1 : f first = false := (Except.ok.inj hf1).symm
    have h2 : f second = true := (Except.ok.inj hf2).symm
    have h3 : f third = true := (Except.ok.inj hf3).symm
    have hmatched : [first, second, third].filter f = [second, third] := by simp [h1, h2, h3]
    have hkept : ([first, second, third].filter fun d => !f d) = [first] := by simp [h1, h2, h3]
    obtain ⟨t, hdelete, hrewritten, -⟩ := hacts.deleteMany
    rw [hmatched] at hdelete
    rw [hkept] at hrewritten
    exact ⟨by rw [hacts.find, hmatched], hcount, t, hdelete, hrewritten⟩

end Store
end Docbase
