/-
What the operations on a collection rest on: collisions of documents, and the
first match of a predicate.

A new document is checked one way against each stored one. That documents which
do not collide one way do not collide the other way is `collides_symm`, for
documents that hold no key twice. `judge_eq_ok_iff` and `splitMatch?_eq_some_iff`
say which document an operation on the first match finds.
-/
import Docbase.Proofs.Outcome
import Docbase.Proofs.Value.Equality
import Docbase.Store.Collection

namespace Docbase

/-- Whether no document in a document, itself included, holds a key twice. -/
def Document.wellKeyed (d : Document) : Bool := (Value.document d).wellKeyed

namespace Collection

/-! ## Collisions -/

theorem sameId_symm {a b : Document} (ha : Document.wellKeyed a = true) (h : sameId a b = true) :
    sameId b a = true := by
  unfold sameId at h ⊢
  split at h
  · next hva hvb =>
    rw [hva, hvb]
    exact Value.equal_symm (Value.wellKeyed_of_get? ha hva) h
  · cases h

theorem sameKey_symm {a b : Document} (ha : Document.wellKeyed a = true) {field : String}
    (h : sameKey (a.operand? field) (b.operand? field) = true) :
    sameKey (b.operand? field) (a.operand? field) = true := by
  unfold Document.operand? Document.lookup? at h ⊢
  cases hva : a.getPath? (fieldPath field) with
  | none =>
    rw [hva] at h
    cases hvb : b.getPath? (fieldPath field) with
    | none => rfl
    | some w => rw [hvb] at h; cases h
  | some v =>
    rw [hva] at h
    cases hvb : b.getPath? (fieldPath field) with
    | none => rw [hvb] at h; cases h
    | some w =>
      rw [hvb] at h
      exact Operand.looksEqual_symm (Value.wellKeyed_of_getPath? ha hva) h

theorem agreesOn_symm {a b : Document} (ha : Document.wellKeyed a = true) {spec : IndexSpec}
    (h : agreesOn spec a b = true) : agreesOn spec b a = true := by
  rw [agreesOn, List.all_eq_true] at h ⊢
  exact fun field hfield => sameKey_symm ha (h field hfield)

theorem collides_eq_false_iff {indexes : List IndexSpec} {d other : Document} :
    collides indexes d other = false ↔ sameId other d = false ∧
      ∀ spec ∈ indexes, spec.isUnique = true → agreesOn spec d other = false := by
  simp only [collides, Bool.or_eq_false_iff, List.any_eq_false, Bool.and_eq_true, not_and,
    Bool.not_eq_true]

/-- With one more index, documents are also apart in that one, if it is unique. -/
theorem collides_concat_eq_false_iff {indexes : List IndexSpec} {spec : IndexSpec} {d other : Document} :
    collides (indexes ++ [spec]) d other = false ↔
      collides indexes d other = false ∧ (spec.isUnique = true → collides [spec] d other = false) := by
  simp only [collides_eq_false_iff, List.forall_mem_append, List.forall_mem_singleton]
  tauto

theorem collides_symm {indexes : List IndexSpec} {a b : Document} (ha : Document.wellKeyed a = true)
    (hb : Document.wellKeyed b = true) (h : collides indexes a b = false) :
    collides indexes b a = false := by
  rw [collides_eq_false_iff] at h ⊢
  constructor
  · rw [← Bool.not_eq_true]
    intro hid
    rw [sameId_symm ha hid] at h
    cases h.1
  · intro spec hspec hunique
    rw [← Bool.not_eq_true]
    intro hagree
    have := h.2 spec hspec hunique
    rw [agreesOn_symm hb hagree] at this
    cases this

theorem checkUnique_eq_ok_iff {name : String} {indexes : List IndexSpec} {d : Document}
    {others : List Document} : checkUnique name indexes d others = .ok () ↔
      ∀ other ∈ others, collides indexes d other = false := by
  unfold checkUnique
  split
  · next h =>
    obtain ⟨other, hmem, hc⟩ := List.any_eq_true.1 h
    constructor
    · intro h; cases h
    · intro h
      rw [h other hmem] at hc
      cases hc
  · next h =>
    simp only [List.any_eq_true, not_exists, not_and, Bool.not_eq_true] at h
    exact iff_of_true rfl h

theorem insert_eq_ok_iff {c c' : Collection} {name : String} {d : Document} : c.insert name d = .ok c' ↔
    (∀ other ∈ c.documents, collides c.indexes d other = false) ∧
      c' = { c with documents := c.documents ++ [d] } := by
  constructor
  · intro h
    obtain ⟨⟨⟩, hunique, rfl⟩ := map_eq_ok_iff.1 h
    exact ⟨checkUnique_eq_ok_iff.1 hunique, rfl⟩
  · rintro ⟨hunique, rfl⟩
    rw [insert, checkUnique_eq_ok_iff.2 hunique, ok_map]

/-! ## Many documents -/

/-- Adds documents one after the other, up to the first that is refused. -/
def load (c : Collection) (name : String) (ds : List Document) : Result Collection :=
  ds.foldlM (fun c d => c.insert name d) c

/-- Documents are stored one after the other iff none of them collides with an earlier one. -/
theorem load_eq_ok_iff {c c' : Collection} {name : String} {ds : List Document} : c.load name ds = .ok c' ↔
    (∀ d ∈ ds, ∀ other ∈ c.documents, collides c.indexes d other = false) ∧
      (ds.Pairwise fun a b => collides c.indexes b a = false) ∧
        c' = { c with documents := c.documents ++ ds } := by
  induction ds generalizing c with
  | nil =>
    simp only [load, List.foldlM_nil, List.append_nil, List.not_mem_nil, false_imp_iff, implies_true,
      List.Pairwise.nil, true_and]
    exact ⟨fun h => (Except.ok.inj h).symm, congrArg Except.ok ∘ Eq.symm⟩
  | cons d ds ih =>
    rw [load, List.foldlM_cons, bind_eq_ok_iff]
    constructor
    · rintro ⟨c₁, hinsert, hload⟩
      obtain ⟨hd, rfl⟩ := insert_eq_ok_iff.1 hinsert
      obtain ⟨hds, hpairwise, rfl⟩ := ih.1 hload
      refine ⟨List.forall_mem_cons.2 ⟨hd, fun x hx other hother => ?_⟩, List.pairwise_cons.2 ⟨?_, hpairwise⟩, ?_⟩
      · exact hds x hx other (List.mem_append_left _ hother)
      · exact fun x hx => hds x hx d (List.mem_append_right _ (List.mem_singleton_self d))
      · rw [List.append_assoc, List.singleton_append]
    · rintro ⟨hds, hpairwise, rfl⟩
      obtain ⟨hd, hpairwise⟩ := List.pairwise_cons.1 hpairwise
      refine ⟨_, insert_eq_ok_iff.2 ⟨hds d List.mem_cons_self, rfl⟩, ih.2 ⟨?_, hpairwise, ?_⟩⟩
      · intro x hx other hother
        rcases List.mem_append.1 hother with hother | hother
        · exact hds x (List.mem_cons_of_mem _ hx) other hother
        · rw [List.mem_singleton.1 hother]
          exact hd x hx
      · rw [List.append_assoc, List.singleton_append]

/-- Refusing documents that collide in one index is inserting them where there is no other. -/
theorem checkDistinct_eq_load (name : String) (spec : IndexSpec) (earlier ds : List Document) :
    checkDistinct name spec earlier ds = (load ⟨earlier, [spec]⟩ name ds).map fun _ => () := by
  induction ds generalizing earlier with
  | nil => rfl
  | cons d ds ih =>
    rw [checkDistinct, load, List.foldlM_cons, insert]
    cases checkUnique name [spec] d earlier with
    | error e => rfl
    | ok _ => exact ih (earlier ++ [d])

theorem checkDistinct_eq_ok_iff {name : String} {spec : IndexSpec} {ds : List Document} :
    checkDistinct name spec [] ds = .ok () ↔ ds.Pairwise fun a b => collides [spec] b a = false := by
  rw [checkDistinct_eq_load, map_eq_ok_iff]
  simp [load_eq_ok_iff]

/-- An index is created unless another text index is there, or stored documents collide in it. -/
theorem createIndex_eq_ok_iff {c c' : Collection} {name : String} {spec : IndexSpec} :
    c.createIndex name spec = .ok c' ↔
      (spec.isText = true → ∀ other ∈ c.indexes, other.isText = true → other.name = spec.name) ∧
        (spec.isUnique = true → c.documents.Pairwise fun a b => collides [spec] b a = false) ∧
          c' = { c with indexes := (c.indexes.filter fun other => other.name ≠ spec.name) ++ [spec] } := by
  have htext : (spec.isText && c.indexes.any fun other => other.isText && other.name ≠ spec.name) = false ↔
      (spec.isText = true → ∀ other ∈ c.indexes, other.isText = true → other.name = spec.name) := by
    simp [← Bool.not_eq_true]
  unfold createIndex
  rw [← htext]
  cases spec.isText && c.indexes.any fun other => other.isText && other.name ≠ spec.name with
  | true => exact ⟨fun h => (by cases h), fun h => (by cases h.1)⟩
  | false =>
    rw [if_neg Bool.false_ne_true]
    cases spec.isUnique with
    | false => exact ⟨fun h => (by cases h; simp), fun h => congrArg Except.ok h.2.2.symm⟩
    | true =>
      rw [if_pos rfl, map_eq_ok_iff]
      constructor
      · rintro ⟨⟨⟩, hdistinct, rfl⟩
        exact ⟨rfl, fun _ => checkDistinct_eq_ok_iff.1 hdistinct, rfl⟩
      · rintro ⟨-, hapart, rfl⟩
        exact ⟨(), checkDistinct_eq_ok_iff.2 (hapart rfl), rfl⟩

/-! ## Judging -/

/-- Whether a document satisfies a predicate of a collection, if there is one. -/
def verdict (c : Collection) (p : Option Predicate) (d : Document) : Result Bool :=
  match p with
  | none => .ok true
  | some p => p.eval c.textFields d

theorem judge_eq_ok_iff {c : Collection} {p : Option Predicate} {judged : List (Document × Bool)} :
    c.judge p = .ok judged ↔
      List.Forall₂ (fun d j => j.1 = d ∧ c.verdict p d = .ok j.2) c.documents judged := by
  rw [judge, mapM_eq_ok_iff]
  refine iff_of_eq (congrArg (List.Forall₂ · c.documents judged) ?_)
  funext d j
  obtain ⟨d', answer⟩ := j
  cases p with
  | none => simp [verdict, eq_comm]
  | some p =>
    simp only [verdict, map_eq_ok_iff, Prod.mk.injEq, eq_iff_iff]
    constructor
    · rintro ⟨a, ha, rfl, rfl⟩
      exact ⟨rfl, ha⟩
    · rintro ⟨rfl, ha⟩
      exact ⟨answer, ha, rfl, rfl⟩

theorem judge_documents {c : Collection} {p : Option Predicate} {judged : List (Document × Bool)}
    (h : c.judge p = .ok judged) : judged.map Prod.fst = c.documents := by
  have hjudged := judge_eq_ok_iff.1 h
  clear h
  generalize c.documents = ds at hjudged
  induction hjudged with
  | nil => rfl
  | cons hj _ ih => rw [List.map_cons, hj.1, ih]

theorem splitMatch?_eq_some_iff {judged : List (Document × Bool)} {before after : List Document}
    {found : Document} : splitMatch? judged = some (before, found, after) ↔
      ∃ bs as, judged = bs ++ (found, true) :: as ∧ (∀ j ∈ bs, j.2 = false) ∧
        before = bs.map Prod.fst ∧ after = as.map Prod.fst := by
  induction judged generalizing before with
  | nil => simp [splitMatch?]
  | cons j judged ih =>
    obtain ⟨d, answer⟩ := j
    cases answer with
    | true =>
      rw [splitMatch?, Option.some.injEq]
      constructor
      · intro h
        cases h
        exact ⟨[], judged, rfl, by simp, rfl, rfl⟩
      · rintro ⟨bs, as, heq, hbs, rfl, rfl⟩
        cases bs with
        | nil => cases heq; rfl
        | cons b bs =>
          rw [List.cons_append, List.cons.injEq] at heq
          have := hbs b List.mem_cons_self
          rw [← heq.1] at this
          cases this
    | false =>
      rw [splitMatch?, Option.map_eq_some_iff]
      constructor
      · rintro ⟨⟨before, found, after⟩, h, heq⟩
        cases heq
        obtain ⟨bs, as, rfl, hbs, rfl, rfl⟩ := ih.1 h
        exact ⟨(d, false) :: bs, as, rfl, by simpa using hbs, rfl, rfl⟩
      · rintro ⟨bs, as, heq, hbs, rfl, rfl⟩
        cases bs with
        | nil => cases heq
        | cons b bs =>
          rw [List.cons_append, List.cons.injEq] at heq
          obtain ⟨rfl, rfl⟩ := heq
          exact ⟨(bs.map Prod.fst, found, as.map Prod.fst), ih.2 ⟨bs, as, rfl, fun j hj =>
            hbs j (List.mem_cons_of_mem _ hj), rfl, rfl⟩, rfl⟩

theorem splitMatch?_eq_none_iff {judged : List (Document × Bool)} :
    splitMatch? judged = none ↔ ∀ j ∈ judged, j.2 = false := by
  induction judged with
  | nil => simp [splitMatch?]
  | cons j judged ih =>
    obtain ⟨d, answer⟩ := j
    cases answer with
    | true => simp [splitMatch?]
    | false => simp [splitMatch?, ih]

theorem splitMatch?_map_eq_some_iff {p : Document → Bool} {ds before after : List Document}
    {found : Document} : splitMatch? (ds.map fun d => (d, p d)) = some (before, found, after) ↔
      ds = before ++ found :: after ∧ p found = true ∧ ∀ d ∈ before, p d = false := by
  rw [splitMatch?_eq_some_iff]
  constructor
  · rintro ⟨bs, as, heq, hbs, rfl, rfl⟩
    obtain ⟨before, rest, rfl, rfl, hrest⟩ := List.map_eq_append_iff.1 heq
    obtain ⟨stored, after, rfl, hstored, rfl⟩ := List.map_eq_cons_iff.1 hrest
    obtain ⟨rfl, hfound⟩ := Prod.mk.injEq .. ▸ hstored
    exact ⟨by simp [Function.comp_def], hfound, by simpa using hbs⟩
  · rintro ⟨rfl, hfound, hbefore⟩
    refine ⟨before.map fun d => (d, p d), after.map fun d => (d, p d), ?_, ?_, ?_, ?_⟩
    · simp [hfound]
    · simpa using hbefore
    · simp [Function.comp_def]
    · simp [Function.comp_def]

theorem splitMatch?_documents {c : Collection} {p : Option Predicate} {judged : List (Document × Bool)}
    (h : c.judge p = .ok judged) {before after : List Document} {found : Document}
    (hsplit : splitMatch? judged = some (before, found, after)) :
    c.documents = before ++ found :: after := by
  obtain ⟨bs, as, rfl, -, rfl, rfl⟩ := splitMatch?_eq_some_iff.1 hsplit
  rw [← judge_documents h, List.map_append, List.map_cons]

theorem splitMatch?_sublist {c : Collection} {p : Option Predicate} {judged : List (Document × Bool)}
    (h : c.judge p = .ok judged) {before after : List Document} {found : Document}
    (hsplit : splitMatch? judged = some (before, found, after)) :
    (before ++ after).Sublist c.documents := by
  rw [splitMatch?_documents h hsplit]
  exact (List.Sublist.refl before).append (List.sublist_cons_self found after)

/-! ## Writing -/

/-- What is stored over a document has its `_id`. -/
theorem replacement_eq_insert {stored d d' : Document} {id : Value} (hid : stored.get? idField = some id)
    (h : replacement stored d = .ok d') : d' = d.insert idField id := by
  simp only [replacement, hid] at h
  split at h
  · cases h; rfl
  · split at h
    · cases h; rfl
    · cases h

/-- What may not be stored over a document carries another `_id`. -/
theorem replacement_eq_error {stored d : Document} {e : Error} (h : replacement stored d = .error e) :
    ∃ id other, stored.get? idField = some id ∧ d.get? idField = some other ∧ other.equal id = false ∧
      e = .store .idChanged := by
  unfold replacement at h
  split at h
  · cases h
  · next id hid =>
    split at h
    · cases h
    · next other hother =>
      split at h
      · cases h
      · next hne =>
        cases h
        exact ⟨id, other, hid, hother, Bool.eq_false_iff.2 hne, rfl⟩

theorem replaceOne_cases {c c' : Collection} {name : String} {p : Predicate} {d : Document} {n : Nat}
    (h : c.replaceOne name p d = .ok (c', n)) : c' = c ∨
      ∃ before stored after d', c.documents = before ++ stored :: after ∧ replacement stored d = .ok d' ∧
        (∀ other ∈ before ++ after, collides c.indexes d' other = false) ∧
        c' = { c with documents := before ++ d' :: after } := by
  unfold replaceOne at h
  split at h
  · cases h
  · next judged hjudge =>
    split at h
    · cases h; exact .inl rfl
    · next before stored after hsplit =>
      split at h
      · cases h
      · next d' hreplacement =>
        obtain ⟨⟨⟩, hunique, heq⟩ := map_eq_ok_iff.1 h
        cases heq
        exact .inr ⟨before, stored, after, d', splitMatch?_documents hjudge hsplit, hreplacement,
          checkUnique_eq_ok_iff.1 hunique, rfl⟩

theorem deleteOne_sublist {c c' : Collection} {p : Predicate} {n : Nat} (h : c.deleteOne p = .ok (c', n)) :
    ∃ ds, ds.Sublist c.documents ∧ c' = { c with documents := ds } := by
  obtain ⟨judged, hjudge, heq⟩ := map_eq_ok_iff.1 h
  split at heq
  · cases heq; exact ⟨_, .refl _, rfl⟩
  · next before stored after hsplit =>
    cases heq
    exact ⟨_, splitMatch?_sublist hjudge hsplit, rfl⟩

theorem deleteMany_sublist {c c' : Collection} {p : Option Predicate} {n : Nat}
    (h : c.deleteMany p = .ok (c', n)) : ∃ ds, ds.Sublist c.documents ∧ c' = { c with documents := ds } := by
  obtain ⟨judged, hjudge, heq⟩ := map_eq_ok_iff.1 h
  cases heq
  refine ⟨_, ?_, rfl⟩
  rw [← judge_documents hjudge]
  exact List.filter_sublist.map Prod.fst

theorem createIndex_documents {c c' : Collection} {name : String} {spec : IndexSpec}
    (h : c.createIndex name spec = .ok c') : c'.documents = c.documents := by
  obtain ⟨-, -, rfl⟩ := createIndex_eq_ok_iff.1 h
  rfl

end Collection
end Docbase
