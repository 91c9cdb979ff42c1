/-
What a unique index on one field keeps apart. The index compares what comparisons see of
the field, and a document without the field has a key of its own there; a query counts a
missing field as null. So among the documents that answer a query for one value, and hold no
array, the index admits one that has the field and, for null, one more that does not
(`Collection.Valid.found_apart`). It admits one for the query, as a key would, iff there are
not both: `Server.unique_admits_one_iff`.
-/
import Docbase.Proofs.Matching.Equality
import Docbase.Proofs.Store.Reachable
import Docbase.Proofs.Store.Verdict

namespace Docbase

variable {f : String} {v : Value}

/-- Whether the value of a field, if there is one, is no array. -/
def Document.holdsNoArray (d : Document) (field : String) : Bool :=
  match d.lookup? field with
  | some (.array _) => false
  | _ => true

/-- A field that holds no array equals a value if it looks equal, or is missing where null is asked for. -/
theorem Matching.equals_iff_of_holdsNoArray {d : Document} (hd : d.holdsNoArray f = true) :
    equals (d.operand? f) (Operand.ofValue v) = true ↔
      (d.lookup? f = none ∧ Operand.ofValue v = .null) ∨ ∃ w, d.lookup? f = some w ∧ Operand.looksEqual w v := by
  rw [equals_iff, or_comm]
  refine or_congr_right ⟨?_, fun ⟨w, hw, h⟩ => ⟨w, hw, .inl h⟩⟩
  rintro ⟨w, hw, h | ⟨items, rfl, -⟩⟩
  · exact ⟨w, hw, h⟩
  · rw [Document.holdsNoArray, hw] at hd
    cases hd

namespace Collection

variable {c : Collection} {spec : IndexSpec} {a b : Document}

/-- Whether a document answers a query for one value of a field, and holds no array there. -/
def answersAlone (f : String) (v : Value) (d : Document) : Bool :=
  d.holdsNoArray f && Matching.equals (d.operand? f) (Operand.ofValue v)

theorem matching_eq (c : Collection) (f : String) (v : Value) : c.matching (some (.eq f v)) =
    .ok (c.documents.filter fun d => Matching.equals (d.operand? f) (Operand.ofValue v)) :=
  matching_of_judge (judge_of_verdicts fun _ _ => rfl)

theorem filter_answersAlone (ds : List Document) (f : String) (v : Value) :
    (ds.filter fun d => Matching.equals (d.operand? f) (Operand.ofValue v)).filter (·.holdsNoArray f) =
      ds.filter (answersAlone f v) := List.filter_filter

theorem answersAlone_iff {d : Document} : answersAlone f v d = true ↔ d.holdsNoArray f = true ∧
    ((d.lookup? f = none ∧ Operand.ofValue v = .null) ∨ ∃ w, d.lookup? f = some w ∧ Operand.looksEqual w v) := by
  rw [answersAlone, Bool.and_eq_true]
  exact and_congr_right Matching.equals_iff_of_holdsNoArray

/-- Documents that answer for one value, and both have the field or both lack it, have one key. -/
theorem sameKey_of_answersAlone (hb : Document.wellKeyed b = true) (ha : answersAlone f v a = true)
    (hb' : answersAlone f v b = true) (hpresent : (a.lookup? f).isSome = (b.lookup? f).isSome) :
    sameKey (a.operand? f) (b.operand? f) = true := by
  rw [Document.operand?, Document.operand?]
  rcases (answersAlone_iff.1 ha).2 with ⟨hnone, -⟩ | ⟨x, hx, hxv⟩
  · rw [hnone, Option.isSome_none, eq_comm, Option.isSome_eq_false_iff, Option.isNone_iff_eq_none] at hpresent
    rw [hnone, hpresent]
    rfl
  · rcases (answersAlone_iff.1 hb').2 with ⟨hnone, -⟩ | ⟨y, hy, hyv⟩
    · rw [hx, hnone] at hpresent
      cases hpresent
    · rw [hx, hy]
      exact Operand.looksEqual_trans hxv (Operand.looksEqual_symm (Value.wellKeyed_of_getPath? hb hy) hyv)

/-- Of two documents that answer for one value, one has the field and one lacks it. -/
theorem Valid.found_apart (h : c.Valid) (hspec : spec ∈ c.indexes) (hunique : spec.isUnique = true)
    (hf : spec.fieldNames = [f]) (v : Value) :
    c.documents.Pairwise fun a b => answersAlone f v a = true → answersAlone f v b = true →
      (a.lookup? f).isSome ≠ (b.lookup? f).isSome := by
  refine h.apart.imp_of_mem fun {a b} _ hb hab ha hb' hpresent => ?_
  have hagrees := (collides_eq_false_iff.1 hab).2 spec hspec hunique
  rw [agreesOn, hf, List.all_cons, List.all_nil, Bool.and_true,
    sameKey_of_answersAlone (h.wellKeyed b hb) ha hb' hpresent] at hagrees
  cases hagrees

/-- One document answers for a value if one of those that have the field, and one of those that lack it,
are not both stored; null is the only value that both answer for. -/
theorem Valid.one_answers_iff (h : c.Valid) (hspec : spec ∈ c.indexes) (hunique : spec.isUnique = true)
    (hf : spec.fieldNames = [f]) (v : Value) : (c.documents.filter (answersAlone f v)).length ≤ 1 ↔
      ¬(Operand.ofValue v = .null ∧ (∃ d ∈ c.documents, d.lookup? f = none) ∧
        ∃ d ∈ c.documents, ∃ w, d.lookup? f = some w ∧ Operand.ofValue w = .null) := by
  constructor
  · rintro hle ⟨hv, ⟨a, ha, hnone⟩, b, hb, w, hw, hnull⟩
    have ha' : a ∈ c.documents.filter (answersAlone f v) := by
      refine List.mem_filter.2 ⟨ha, answersAlone_iff.2 ⟨?_, .inl ⟨hnone, hv⟩⟩⟩
      rw [Document.holdsNoArray, hnone]
    have hb' : b ∈ c.documents.filter (answersAlone f v) := by
      refine List.mem_filter.2 ⟨hb, answersAlone_iff.2 ⟨?_, .inr ⟨w, hw, ?_⟩⟩⟩
      · rw [Document.holdsNoArray, hw]
        cases w with
        | array items => cases hnull
        | _ => rfl
      · rw [Operand.looksEqual, hv, hnull]
        rfl
    obtain ⟨d, hd⟩ := List.length_eq_one_iff.1 (Nat.le_antisymm hle (List.length_pos_of_mem ha'))
    rw [hd, List.mem_singleton] at ha' hb'
    rw [ha', ← hb', hw] at hnone
    cases hnone
  · intro hnot
    refine length_filter_le_one ((h.found_apart hspec hunique hf v).imp_of_mem fun {a b} ha hb hab hboth => ?_)
    obtain ⟨ha', hb'⟩ := hboth
    have hpresent := hab ha' hb'
    rcases (answersAlone_iff.1 ha').2 with ⟨hnone, hv⟩ | ⟨x, hx, hxv⟩
    · rcases (answersAlone_iff.1 hb').2 with ⟨hnone', -⟩ | ⟨y, hy, hyv⟩
      · exact hpresent (by rw [hnone, hnone'])
      · exact hnot ⟨hv, ⟨a, ha, hnone⟩, b, hb, y, hy, (Value.ofValue_eq_null_iff hyv).2 hv⟩
    · rcases (answersAlone_iff.1 hb').2 with ⟨hnone, hv⟩ | ⟨y, hy, -⟩
      · exact hnot ⟨hv, ⟨b, hb, hnone⟩, a, ha, x, hx, (Value.ofValue_eq_null_iff hxv).2 hv⟩
      · exact hpresent (by rw [hx, hy, Option.isSome_some, Option.isSome_some])

end Collection

namespace Server

/-- **A unique index on one field admits one document for each value that a query asks for**, arrays left
aside, as long as a document without the field counts as another key than null. All documents answer the
query or not; of those that do, at most one has the field, and at most one lacks it. Both are stored only
where the query asks for null, or for what looks like null, and one document lacks the field while
another holds null there. -/
theorem unique_admits_one_iff {s : Server} (h : s.Reachable) {name : String} {c : Collection}
    (hc : s.store.get? name = some c) {spec : IndexSpec} (hspec : spec ∈ c.indexes)
    (hunique : spec.isUnique = true) (hf : spec.fieldNames = [f]) (v : Value) :
    ∃ ds, c.matching (some (.eq f v)) = .ok ds ∧
      (∀ present, ((ds.filter (·.holdsNoArray f)).filter fun d => (d.lookup? f).isSome = present).length ≤ 1) ∧
      ((ds.filter (·.holdsNoArray f)).length ≤ 1 ↔
        ¬(Operand.ofValue v = .null ∧ (∃ d ∈ c.documents, d.lookup? f = none) ∧
          ∃ d ∈ c.documents, ∃ w, d.lookup? f = some w ∧ Operand.ofValue w = .null)) := by
  have hvalid := h.valid name c hc
  refine ⟨_, c.matching_eq f v, fun present => ?_, ?_⟩
  · rw [Collection.filter_answersAlone, List.filter_filter]
    refine length_filter_le_one ((hvalid.found_apart hspec hunique hf v).imp fun {a b} hab hboth => ?_)
    simp only [Bool.and_eq_true, decide_eq_true_eq] at hboth
    exact hab hboth.1.2 hboth.2.2 (hboth.1.1.trans hboth.2.1.symm)
  · rw [Collection.filter_answersAlone]
    exact hvalid.one_answers_iff hspec hunique hf v

/-- Under a unique index, the integer 7 and an array that holds it answer a query for 7, and the double 7 has
been refused. -/
theorem unique_admits_one_of_codes :
    let calls : List Call :=
      [.createIndex "notes" ⟨"byCode", [⟨"code.main", .ascending⟩], true, .standard⟩,
        .insert "notes" ⟨[("_id", .int32 1), ("code", .document [("main", .int32 7)])], by decide⟩,
        .insert "notes" ⟨[("_id", .int32 2), ("code", .document [("main", .array [.int64 7])])], by decide⟩,
        .insert "notes" ⟨[("_id", .int32 3), ("code", .document [("main", .double (.ofInt 7))])], by decide⟩,
        .insert "notes" ⟨[("_id", .int32 4)], by decide⟩]
    let s := calls.foldl Call.run .empty
    s.Reachable ∧ ∃ c ds, s.store.get? "notes" = some c ∧
      c.matching (some (.eq "code.main" (.int64 7))) = .ok ds ∧ ds.length = 2 ∧
      (ds.filter (·.holdsNoArray "code.main")).length ≤ 1 := by
  intro calls s
  have hs : s.Reachable := (Reachable.init rfl).calls calls
  let spec : IndexSpec := ⟨"byCode", [⟨"code.main", .ascending⟩], true, .standard⟩
  obtain ⟨c, hc⟩ : ∃ c, s.store.get? "notes" = some c := ⟨_, rfl⟩
  have hspec : spec ∈ c.indexes := by
    cases hc
    exact List.mem_singleton_self spec
  obtain ⟨ds, hds, -, hone⟩ := unique_admits_one_iff hs hc hspec rfl rfl (.int64 7)
  refine ⟨hs, c, ds, hc, hds, ?_, hone.2 fun hnull => by cases hnull.1⟩
  cases hc
  cases hds
  decide

/-- A document that lacks the field of a unique index, and one that holds null there, are both stored, and
both answer a query for null. -/
theorem unique_admits_two_for_null :
    let calls : List Call :=
      [.createIndex "notes" ⟨"byCode", [⟨"code", .ascending⟩], true, .standard⟩,
        .insert "notes" ⟨[("_id", .int32 1)], by decide⟩,
        .insert "notes" ⟨[("_id", .int32 2), ("code", .null)], by decide⟩]
    let s := calls.foldl Call.run .empty
    s.Reachable ∧ ∃ c ds, s.store.get? "notes" = some c ∧
      (∃ spec ∈ c.indexes, spec.isUnique = true ∧ spec.fieldNames = ["code"]) ∧
      c.matching (some (.eq "code" .null)) = .ok ds ∧ (ds.filter (·.holdsNoArray "code")).length = 2 := by
  intro calls s
  exact ⟨(Reachable.init rfl).calls calls, _, _, rfl, by decide, rfl, by decide⟩

end Server
end Docbase
