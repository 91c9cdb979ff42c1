/-
What equality of a field with a value finds. It finds values that look equal, so that types without an
order stand for null at every depth. What it finds is the value itself, up to the type of numbers, for every
document exactly if nothing in the value looks like null (`Predicate.eq_sound_iff`).
-/
import Docbase.Matching.Evaluate
import Docbase.Proofs.Store.Addressing
import Docbase.Proofs.Value.NumericEquality

namespace Docbase

variable {R S : Value → Value → Prop} {d : Document} {f : String} {v w : Value}

open Value (Occurs NumericallyEqual)
open Operand (ofValue looksEqual)

namespace Document

/-- A field has a value that is related to `v`, or an array with an item that is. -/
def FieldHas (d : Document) (f : String) (R : Value → Value → Prop) (v : Value) : Prop :=
  ∃ w, d.lookup? f = some w ∧ (R w v ∨ ∃ items, w = .array items ∧ ∃ item ∈ items, R item v)

theorem FieldHas.imp (h : d.FieldHas f R v)
    (hRS : ∀ w, d.lookup? f = some w → ∀ x, Occurs x w → R x v → S x v) : d.FieldHas f S v := by
  obtain ⟨w, hw, hR | ⟨items, rfl, item, hitem, hR⟩⟩ := h
  · exact ⟨w, hw, .inl (hRS w hw w .self hR)⟩
  · exact ⟨_, hw, .inr ⟨items, rfl, item, hitem, hRS _ hw item (.item hitem .self) hR⟩⟩

/-- What equality with a value is to find: a field that has it, numbers up to their type, or no field
where the value is null. -/
def HasEqual (d : Document) (f : String) (v : Value) : Prop :=
  d.FieldHas f NumericallyEqual v ∨ (d.lookup? f = none ∧ v = .null)

theorem hasEqual_iff_of_lookup? (hw : d.lookup? f = some w) : d.HasEqual f v ↔
    NumericallyEqual w v ∨ ∃ items, w = .array items ∧ ∃ item ∈ items, NumericallyEqual item v := by
  simp [HasEqual, FieldHas, hw]

/-- The document with a value at the end of a path and nothing else. -/
def nest (v : Value) (key : String) : List String → Document
  | [] => [(key, v)]
  | next :: rest => [(key, .document (nest v next rest))]

theorem getPath?_nest (v : Value) (key : String) (rest : List String) :
    (nest v key rest).getPath? (key :: rest) = some v := by
  induction rest generalizing key with
  | nil => simp [nest, getPath?, Fields.get?]
  | cons next rest ih => simp [nest, getPath?, Fields.get?, ih]

theorem wellKeyed_nest (hv : v.wellKeyed = true) (key : String) (rest : List String) :
    (Value.document (nest v key rest)).wellKeyed = true := by
  induction rest generalizing key with
  | nil => simpa [nest, Value.wellKeyed_document, Fields.keys] using hv
  | cons next rest ih => simpa [nest, Value.wellKeyed_document, Fields.keys] using ih next

/-- Every value without repeated keys is found in some document under every name. -/
theorem exists_lookup? (f : String) (hv : v.wellKeyed = true) :
    ∃ d : Document, (Value.document d).wellKeyed = true ∧ d.lookup? f = some v := by
  obtain ⟨rest, hpath⟩ := fieldPath_eq_cons f
  exact ⟨nest v (rootKey f) rest, wellKeyed_nest hv _ _, by rw [lookup?, hpath, getPath?_nest]⟩

end Document

/-- A field equals a value if it looks equal, or an item of it does, or it is missing where null is asked for. -/
theorem Matching.equals_iff : equals (d.operand? f) (ofValue v) = true ↔
    d.FieldHas f looksEqual v ∨ (d.lookup? f = none ∧ ofValue v = .null) := by
  rw [Document.operand?, Document.FieldHas]
  cases hw : d.lookup? f with
  | none =>
    rw [Option.map_none]
    cases hv : ofValue v <;> simp [equals]
  | some w =>
    cases w with
    | array items => simp [equals, ofValue, Operand.ofItems_eq, looksEqual]
    | _ => simp [equals, ofValue, looksEqual]

namespace Value

/-- Whether null is all in a value that looks like null. -/
def IsPlain (v : Value) : Prop := ∀ u, Occurs u v → ofValue u = .null → u = .null

/-- Whether nothing in a value looks like null. -/
def IsNullFree (v : Value) : Prop := ∀ u, Occurs u v → ofValue u ≠ .null

end Value

namespace Predicate

variable {textFields : List String}

theorem eval_eq_iff : (eq f v).eval textFields d = .ok true ↔
    d.FieldHas f looksEqual v ∨ (d.lookup? f = none ∧ ofValue v = .null) :=
  Iff.trans ⟨Except.ok.inj, congrArg Except.ok⟩ Matching.equals_iff

/-- Where null is all that looks like null, equality finds the value. -/
theorem eval_eq_of_plain (hv : v.IsPlain) (hd : ∀ w, d.lookup? f = some w → w.IsPlain) :
    (eq f v).eval textFields d = .ok true ↔ d.HasEqual f v := by
  rw [eval_eq_iff]
  refine or_congr ⟨fun h => h.imp fun w hw x hx hlooks => ?_, fun h => h.imp fun w hw x hx hequal => ?_⟩
    (and_congr_right fun _ => ⟨fun h => hv v .self h, fun h => h ▸ rfl⟩)
  · refine Value.numericallyEqual_of_looksEqual hlooks fun u y hu hy hu' hy' => ?_
    rw [hd w hw u (hu.trans hx) hu', hv y hy hy']
  · exact Value.looksEqual_of_numericallyEqual hequal

/-- Equality finds nothing but the value, if nothing in it looks like null, or if it holds NaN and is
found nowhere. -/
theorem hasEqual_of_eval_eq (hv : v.wellKeyed = true) (hfree : v.equal v = true → v.IsNullFree)
    (hd : (Value.document d).wellKeyed = true) (h : (eq f v).eval textFields d = .ok true) : d.HasEqual f v := by
  rcases eval_eq_iff.1 h with h | ⟨-, hnull⟩
  · refine .inl (h.imp fun w hw x hx hlooks => ?_)
    have hx' := Value.wellKeyed_of_occurs (Value.wellKeyed_of_getPath? hd hw) hx
    -- What some value looks equal to holds no NaN, and so is equal to itself.
    have hself := Operand.looksEqual_trans (Operand.looksEqual_symm hx' hlooks) hlooks
    refine Value.numericallyEqual_of_looksEqual hlooks fun u y _ hy _ hy' => ?_
    exact absurd hy' (hfree ((Value.looksEqual_self_iff hv).1 hself) y hy)
  · exact absurd hnull (hfree (Value.equal_self_of_null hnull) v .self)

/-- Where something in a value looks like null, equality finds another value somewhere. -/
theorem exists_eval_eq (f : String) {u : Value} (hv : v.wellKeyed = true) (hself : v.equal v = true)
    (hu : Occurs u v) (hnull : ofValue u = .null) : ∃ d : Document, (Value.document d).wellKeyed = true ∧
      (∀ textFields, (eq f v).eval textFields d = .ok true) ∧ ¬d.HasEqual f v := by
  obtain ⟨w, hw, hlooks, hne, hitems⟩ := Value.exists_lookalike hv hself hu hnull
  obtain ⟨d, hd, hlookup⟩ := Document.exists_lookup? f hw
  refine ⟨d, hd, fun textFields => eval_eq_iff.2 (.inl ⟨w, hlookup, .inl hlooks⟩), ?_⟩
  rw [Document.hasEqual_iff_of_lookup? hlookup]
  rintro (hequal | ⟨items, heq, item, hitem, hequal⟩)
  · exact hne hequal
  · exact hitems items heq item hitem hequal

/-- **Equality finds nothing but the value iff nothing in the value looks like null.** It finds what is
numerically equal once all that looks like null is null, and a missing field for each value that looks like
null. A value that holds NaN is found nowhere, so there it does not matter what else it holds. Where null
is all that looks like null, in the value and in the field, equality finds the value and nothing else. -/
theorem eq_sound_iff (hv : v.wellKeyed = true) :
    (∀ textFields (d : Document), (eq f v).eval textFields d = .ok true ↔
      d.FieldHas f (fun a b => NumericallyEqual a.blank b.blank) v ∨ (d.lookup? f = none ∧ v.blank = .null)) ∧
    ((∀ textFields (d : Document), (Value.document d).wellKeyed = true → (eq f v).eval textFields d = .ok true →
      d.HasEqual f v) ↔ (v.equal v = true → v.IsNullFree)) ∧
    ∀ textFields (d : Document), v.IsPlain → (∀ w, d.lookup? f = some w → w.IsPlain) →
      ((eq f v).eval textFields d = .ok true ↔ d.HasEqual f v) := by
  refine ⟨fun textFields d => ?_,
    ⟨fun h hself u hu hnull => ?_, fun h textFields d hd => hasEqual_of_eval_eq hv h hd⟩,
    fun textFields d hplain hd => eval_eq_of_plain hplain hd⟩
  · rw [eval_eq_iff, Value.blank_eq_null_iff]
    exact or_congr_left ⟨fun h => h.imp fun _ _ _ _ => Value.looksEqual_iff.1,
      fun h => h.imp fun _ _ _ _ => Value.looksEqual_iff.2⟩
  · obtain ⟨d, hd, heval, hne⟩ := exists_eval_eq f hv hself hu hnull
    exact hne (h [] d hd (heval []))

/-- A list of a number and a text is found in any type of the number, and nowhere without being there. -/
theorem eq_sound_of_list :
    let v : Value := .array [.int64 7, .string "a"]
    let d : Document := [("_id", .int32 1), ("size", .document [("n", .array [.double (.ofInt 7), .string "a"])])]
    v.wellKeyed = true ∧ (eq "size.n" v).eval [] d = .ok true ∧
      ∀ textFields (d : Document), (Value.document d).wellKeyed = true →
        (eq "size.n" v).eval textFields d = .ok true → d.HasEqual "size.n" v := by
  intro v d
  have hv : v.wellKeyed = true := by decide
  refine ⟨hv, rfl, (eq_sound_iff hv).2.1.2 fun _ u hu => ?_⟩
  change Occurs u (.array _) at hu
  cases hu with
  | self => exact Operand.noConfusion
  | item hmem hu =>
    rcases List.mem_pair.1 hmem with rfl | rfl <;> cases hu <;> exact Operand.noConfusion

/-- A timestamp is found where null is asked for, and a symbol where a timestamp is, inside a document. -/
theorem eq_confuses_types :
    let d : Document := [("_id", .int32 1), ("at", .timestamp 5 1), ("by", .document [("n", .symbol "x")])]
    let v : Value := .document [("n", .timestamp 5 1)]
    (eq "at" .null).eval [] d = .ok true ∧ ¬d.HasEqual "at" .null ∧
      (eq "by" v).eval [] d = .ok true ∧ ¬d.HasEqual "by" v := by
  intro d v
  refine ⟨rfl, fun h => ?_, rfl, fun h => ?_⟩
  · rcases (Document.hasEqual_iff_of_lookup? rfl).1 h with h | ⟨_, h, -⟩ <;> cases h
  · rcases (Document.hasEqual_iff_of_lookup? rfl).1 h with h | ⟨_, h, -⟩ <;> cases h

end Predicate
end Docbase
