/-
Replacing a document keeps its identity. `Collection.Replaces` lists all ways in which a replacement
can end, and `replaceOne_replaces` says that there are no others, as long as every document has an
`_id`. Only in the last of them does a document change, the first match, and it keeps its `_id`; so
the identifiers of a collection stay what they were, in their places (`Server.replaceOne_keeps_ids`).
-/
import Docbase.Proofs.Store.Reachable
import Docbase.Proofs.Store.Verdict

namespace Docbase

namespace Collection

/-- A document that satisfies a predicate, with those around it, of which no earlier one does. -/
structure FirstMatch (c : Collection) (p : Predicate) (before : List Document) (found : Document)
    (after : List Document) : Prop where
  documents_eq : c.documents = before ++ found :: after
  accepted : c.accepts (some p) found = true
  rejected : ∀ d ∈ before, c.accepts (some p) d = false

/-- The identifiers of the documents, in store order. -/
def ids (c : Collection) : List (Option Value) := c.documents.map (Fields.get? · idField)

variable {c : Collection} {p : Predicate} {before after before' after' : List Document} {found found' : Document}

theorem firstMatch_iff : c.FirstMatch p before found after ↔
    splitMatch? (c.documents.map fun d => (d, c.accepts (some p) d)) = some (before, found, after) := by
  rw [splitMatch?_map_eq_some_iff]
  exact ⟨fun h => ⟨h.documents_eq, h.accepted, h.rejected⟩, fun h => ⟨h.1, h.2.1, h.2.2⟩⟩

theorem FirstMatch.unique (h : c.FirstMatch p before found after) (h' : c.FirstMatch p before' found' after') :
    before = before' ∧ found = found' ∧ after = after' := by
  have heq := (firstMatch_iff.1 h).symm.trans (firstMatch_iff.1 h')
  simpa using heq

/-- How the replacement of the first document that satisfies a predicate ends: refused by a document
that cannot be tested; without a match; refused because the replacement carries another `_id`, or
collides with another document; or with the replacement, under the `_id` of the match, in its place. -/
inductive Replaces (c : Collection) (name : String) (p : Predicate) (d : Document) :
    Result (Collection × Nat) → Prop where
  | untested {x : Document} {e : Error} (hx : x ∈ c.documents) (h : c.verdict (some p) x = .error e) :
      Replaces c name p d (.error e)
  | unmatched (h : ∀ x ∈ c.documents, c.accepts (some p) x = false) : Replaces c name p d (.ok (c, 0))
  | changed {before after : List Document} {found : Document} {id own : Value}
      (hfound : c.FirstMatch p before found after) (hid : found.get? idField = some id)
      (hown : d.get? idField = some own) (h : own.equal id = false) :
      Replaces c name p d (.error (.store .idChanged))
  | taken {before after : List Document} {found other : Document} {id : Value}
      (hfound : c.FirstMatch p before found after) (hid : found.get? idField = some id)
      (hother : other ∈ before ++ after) (h : collides c.indexes (d.insert idField id) other = true) :
      Replaces c name p d (.error (.alreadyExists (idText (d.insert idField id)) name))
  | replaced {before after : List Document} {found : Document} {id : Value}
      (hfound : c.FirstMatch p before found after) (hid : found.get? idField = some id)
      (hown : ∀ own, d.get? idField = some own → own.equal id = true)
      (h : ∀ other ∈ before ++ after, collides c.indexes (d.insert idField id) other = false) :
      Replaces c name p d (.ok ({ c with documents := before ++ d.insert idField id :: after }, 1))

/-- A document that may be stored over another carries its `_id`, if it carries one. -/
theorem equal_of_replacement {stored d d' : Document} {id : Value} (hid : stored.get? idField = some id)
    (h : replacement stored d = .ok d') : ∀ own, d.get? idField = some own → own.equal id = true := by
  intro own hown
  simp only [replacement, hid, hown] at h
  split at h
  · next hequal => exact hequal
  · cases h

/-- **There is no other way for a replacement to end.** -/
theorem replaceOne_replaces (hids : ∀ x ∈ c.documents, Fields.contains x idField = true) (name : String)
    (p : Predicate) (d : Document) : Replaces c name p d (c.replaceOne name p d) := by
  rcases c.judge_cases (some p) with ⟨e, hjudge, x, hx, herror⟩ | ⟨hjudge, -⟩
  · rw [replaceOne, hjudge]
    exact .untested hx herror
  · rw [replaceOne, hjudge]
    dsimp only
    cases hsplit : splitMatch? (c.documents.map fun d => (d, c.accepts (some p) d)) with
    | none =>
      rw [splitMatch?_eq_none_iff, List.forall_mem_map] at hsplit
      exact .unmatched hsplit
    | some split =>
      obtain ⟨before, found, after⟩ := split
      have hfound := firstMatch_iff.2 hsplit
      obtain ⟨id, hid⟩ : ∃ id, found.get? idField = some id := by
        refine Option.isSome_iff_exists.1 (hids found ?_)
        simp [hfound.documents_eq]
      dsimp only
      cases hreplacement : replacement found d with
      | error e =>
        obtain ⟨id', own, hid', hown, hdiffers, rfl⟩ := replacement_eq_error hreplacement
        exact .changed hfound hid' hown hdiffers
      | ok stored =>
        have hown := equal_of_replacement hid hreplacement
        obtain rfl := replacement_eq_insert hid hreplacement
        dsimp only [checkUnique]
        split
        · next htaken =>
          obtain ⟨other, hother, hcollides⟩ := List.any_eq_true.1 htaken
          exact .taken hfound hid hother hcollides
        · next hfree =>
          refine .replaced hfound hid hown fun other hother => Bool.eq_false_iff.2 fun hcollides => ?_
          exact hfree (List.any_eq_true.2 ⟨other, hother, hcollides⟩)

/-- Neither the documents before and after a replacement nor the identifiers change. -/
theorem FirstMatch.ids_eq (h : c.FirstMatch p before found after) {id : Value} (hid : found.get? idField = some id)
    (d : Document) : ids { c with documents := before ++ d.insert idField id :: after } = c.ids := by
  simp only [ids, h.documents_eq, List.map_append, List.map_cons, hid, Fields.get?_insert_self]

end Collection

namespace Server

open Collection

variable {s t : Server} {name : String} {p : Predicate} {d : Document}

/-! What the replacement in a collection comes to for the server. -/

theorem replaceOne_of_error {e : Error} (h : (s.store.collection name).replaceOne name p d = .error e) :
    replaceOne name p d s = (.error e, s) := by
  have hstore : s.store.replaceOne name p d = .error e := Store.update_of_error rfl h
  simp only [replaceOne, change, hstore]

theorem replaceOne_of_unchanged
    (h : (s.store.collection name).replaceOne name p d = .ok (s.store.collection name, 0)) :
    replaceOne name p d s = (.ok 0, s) := by
  have hstore : s.store.replaceOne name p d = .ok (s.store, 0) := Store.update_of_unchanged h
  simp only [replaceOne, change, hstore]

theorem replaceOne_of_ok {ds : List Document} {n : Nat}
    (h : (s.store.collection name).replaceOne name p d =
      .ok ({ s.store.collection name with documents := ds }, n)) :
    ∃ t, replaceOne name p d s = (.ok n, t) ∧ s.store.Rewritten t.store name ds := by
  obtain ⟨store, hstore, hrewritten⟩ :
      ∃ store, s.store.replaceOne name p d = .ok (store, n) ∧ s.store.Rewritten store name ds :=
    Store.update_of_ok rfl h
  exact ⟨{ s with store }, by simp only [replaceOne, change, hstore], hrewritten⟩

/-- **Replacing a document never changes an identity.** If a replacement counts one document, only the
first match has changed: it is the replacement now, under the stored `_id`, which takes the place of
the `_id` that the replacement carries, equal to it, or is added at the end. The identifiers of the
collection are the same in the same order in any case; a replacement that counts none, or fails,
leaves everything as it was; and it fails if it carries another `_id` than the first match. -/
theorem replaceOne_keeps_ids (hs : s.Reachable) {answer : Result Nat} (h : replaceOne name p d s = (answer, t)) :
    (answer = .ok 1 → ∃ before found after id, (s.store.collection name).FirstMatch p before found after ∧
      found.get? idField = some id ∧ s.store.Rewritten t.store name (before ++ d.insert idField id :: after) ∧
      (d.get? idField = none → d.insert idField id = d ++ [(idField, id)]) ∧
      ∀ own, d.get? idField = some own → own.equal id = true ∧ ∃ front back,
        d = front ++ (idField, own) :: back ∧ d.insert idField id = front ++ (idField, id) :: back) ∧
    (t.store.collection name).ids = (s.store.collection name).ids ∧
    (answer ≠ .ok 1 → t = s) ∧
    ∀ before found after id own, (s.store.collection name).FirstMatch p before found after →
      found.get? idField = some id → d.get? idField = some own → own.equal id = false →
      ∃ e, answer = .error e := by
  have hends := replaceOne_replaces (hs.valid.collection name).identified name p d
  generalize hresult : (s.store.collection name).replaceOne name p d = result at hends
  -- A replacement that fails leaves the server as it was, and there is nothing more to show.
  have of_error {e : Error} (hresult : (s.store.collection name).replaceOne name p d = .error e) :
      answer = .error e ∧ t = s := by
    rw [replaceOne_of_error hresult, Prod.mk.injEq] at h
    exact ⟨h.1.symm, h.2.symm⟩
  cases hends with
  | untested | changed | taken =>
    obtain ⟨rfl, rfl⟩ := of_error hresult
    exact ⟨by simp, rfl, fun _ => rfl, fun _ _ _ _ _ _ _ _ _ => ⟨_, rfl⟩⟩
  | unmatched hnone =>
    rw [replaceOne_of_unchanged hresult, Prod.mk.injEq] at h
    obtain ⟨rfl, rfl⟩ := h
    refine ⟨by simp, rfl, fun _ => rfl, fun before found after id own hfound => ?_⟩
    have hrejected := hnone found (by simp [hfound.documents_eq])
    rw [hfound.accepted] at hrejected
    cases hrejected
  | @replaced before after found id hfound hid hown =>
    obtain ⟨t', ht', hrewritten⟩ := replaceOne_of_ok hresult
    rw [ht', Prod.mk.injEq] at h
    obtain ⟨rfl, rfl⟩ := h
    refine ⟨fun _ => ⟨before, found, after, id, hfound, hid, hrewritten, fun hnone => Fields.insert_at_end hnone id,
      fun own hget => ⟨hown own hget, Fields.insert_in_place hget id⟩⟩, ?_, by simp, ?_⟩
    · rw [hrewritten.1]
      exact hfound.ids_eq hid d
    · intro before' found' after' id' own hfound' hid' hget hdiffers
      obtain ⟨-, rfl, -⟩ := hfound.unique hfound'
      rw [hid, Option.some.injEq] at hid'
      subst hid'
      rw [hown own hget] at hdiffers
      cases hdiffers

/-- The replacement carries the `_id` of the second document with its keys in another order. -/
theorem replaceOne_keeps_ids_of_reordered_id :
    let calls : List Call :=
      [.insert "notes" ⟨[("_id", .int32 1), ("name", .string "a")], by decide⟩,
        .insert "notes" ⟨[("_id", .document [("x", .int32 1), ("y", .int32 2)]), ("name", .string "b")], by decide⟩]
    let s := calls.foldl Call.run .empty
    let d : Document := [("name", .string "c"), ("_id", .document [("y", .int32 2), ("x", .int32 1)])]
    s.Reachable ∧ ∃ t, replaceOne "notes" (.eq "name" (.string "b")) d s = (.ok 1, t) ∧
      (t.store.collection "notes").ids = (s.store.collection "notes").ids ∧
      ∃ before found after id, (s.store.collection "notes").FirstMatch (.eq "name" (.string "b")) before found after ∧
        s.store.Rewritten t.store "notes" (before ++ d.insert idField id :: after) := by
  intro calls s d
  have hs : s.Reachable := (Reachable.init rfl).calls calls
  have hanswer : (replaceOne "notes" (.eq "name" (.string "b")) d s).1 = .ok 1 := by rfl
  obtain ⟨hreplaced, hids, -, -⟩ := replaceOne_keeps_ids hs (Prod.ext hanswer rfl)
  obtain ⟨before, found, after, id, hfound, -, hrewritten, -⟩ := hreplaced rfl
  exact ⟨hs, _, Prod.ext hanswer rfl, hids, before, found, after, id, hfound, hrewritten⟩

end Server
end Docbase
