/-
Equality of values and of what comparisons see of them, as relations.

`Value.equal` is decided by cases on the kind of the values; `Value.Alike` says
what it comes to for each kind. Values are documents with keys, and a document
that held a key twice could equal one that does not equal it, so symmetry is
stated for values in which no document does (`wellKeyed`).

`equal_symm`, `equal_trans`: equality is symmetric and transitive.
`looksEqual_of_equal`: what is equal also looks equal to comparisons, whose own
equality is symmetric and transitive as well (`looksEqual_symm`, `looksEqual_trans`).
-/
import Docbase.Matching.Lookup
import Docbase.Proofs.Fields
import Docbase.Proofs.Numeric.Double
import Docbase.Value.Equal

namespace Docbase

theorem forall₂_mono {α β : Type} {R S : α → β → Prop} {as : List α} {bs : List β}
    (h : List.Forall₂ R as bs) (hS : ∀ a ∈ as, ∀ b ∈ bs, R a b → S a b) : List.Forall₂ S as bs := by
  induction h with
  | nil => exact .nil
  | cons hab _ ih =>
    refine .cons (hS _ List.mem_cons_self _ List.mem_cons_self hab) (ih fun a ha b hb => ?_)
    exact hS a (List.mem_cons_of_mem _ ha) b (List.mem_cons_of_mem _ hb)

theorem forall₂_symm {α β : Type} {R : α → β → Prop} {S : β → α → Prop} {as : List α} {bs : List β}
    (h : List.Forall₂ R as bs) (hS : ∀ a ∈ as, ∀ b ∈ bs, R a b → S b a) : List.Forall₂ S bs as :=
  (forall₂_mono (S := flip S) h hS).flip

theorem exists_of_mem_forall₂ {α β : Type} {R : α → β → Prop} {as : List α} {bs : List β}
    (h : List.Forall₂ R as bs) {a : α} (ha : a ∈ as) : ∃ b ∈ bs, R a b := by
  induction h with
  | nil => cases ha
  | cons hab _ ih =>
    rcases List.mem_cons.1 ha with rfl | ha
    · exact ⟨_, List.mem_cons_self, hab⟩
    · obtain ⟨b, hb, hR⟩ := ih ha
      exact ⟨b, List.mem_cons_of_mem _ hb, hR⟩

theorem forall₂_trans {α β γ : Type} {R : α → β → Prop} {S : β → γ → Prop} {T : α → γ → Prop}
    {as : List α} {bs : List β} {cs : List γ} (hab : List.Forall₂ R as bs) (hbc : List.Forall₂ S bs cs)
    (hT : ∀ a ∈ as, ∀ b c, R a b → S b c → T a c) : List.Forall₂ T as cs := by
  induction hab generalizing cs with
  | nil => cases hbc; exact .nil
  | cons hR _ ih =>
    cases hbc with
    | cons hS hbc =>
      refine .cons (hT _ List.mem_cons_self _ _ hR hS) (ih hbc fun a ha => ?_)
      exact hT a (List.mem_cons_of_mem _ ha)

namespace Value

/-- Whether a value holds no other values and is no double. -/
def isAtom : Value → Bool
  | .double _ | .array _ | .document _ => false
  | _ => true

/-- Induction on values through the items of arrays and the fields of documents. -/
theorem nested {P : Value → Prop} (atom : ∀ v, v.isAtom = true → P v) (double : ∀ x, P (.double x))
    (array : ∀ items, (∀ v ∈ items, P v) → P (.array items))
    (document : ∀ fields, (∀ p ∈ fields, P p.2) → P (.document fields)) (v : Value) : P v := by
  cases v with
  | double x => exact double x
  | array items => exact array items fun v _ => nested atom double array document v
  | document fields => exact document fields fun p _ => nested atom double array document p.2
  | _ => exact atom _ rfl
termination_by sizeOf v
decreasing_by
  · next hv =>
    have := List.sizeOf_lt_of_mem hv
    simp only [Value.array.sizeOf_spec]
    omega
  · next hp =>
    have := List.sizeOf_lt_of_mem hp
    obtain ⟨k, v⟩ := p
    simp only [Prod.mk.sizeOf_spec] at this
    simp only [Value.document.sizeOf_spec]
    omega

/-- Whether a value holds no other values. -/
def isLeaf : Value → Bool
  | .array _ | .document _ => false
  | _ => true

/-- Induction on values with one case for all that hold no others. -/
theorem nestedLeaves {P : Value → Prop} (leaf : ∀ v, v.isLeaf = true → P v)
    (array : ∀ items, (∀ v ∈ items, P v) → P (.array items))
    (document : ∀ fields, (∀ p ∈ fields, P p.2) → P (.document fields)) (v : Value) : P v := by
  induction v using nested with
  | atom v hatom => exact leaf v (by cases v <;> first | rfl | cases hatom)
  | double x => exact leaf (.double x) rfl
  | array items ih => exact array items ih
  | document fields ih => exact document fields ih

theorem equalItems_iff {as bs : List Value} :
    equalItems as bs = true ↔ List.Forall₂ (fun a b => a.equal b = true) as bs := by
  induction as generalizing bs with
  | nil => cases bs <;> simp [equalItems]
  | cons a as ih => cases bs <;> simp [equalItems, ih]

theorem equalFields_iff {as bs : Document} : equalFields as bs = true ↔
    ∀ p ∈ as, ∃ b, Fields.get? bs p.1 = some b ∧ p.2.equal b = true := by
  induction as with
  | nil => simp [equalFields]
  | cons p as ih =>
    obtain ⟨k, a⟩ := p
    simp only [equalFields, Bool.and_eq_true, ih, List.mem_cons, forall_eq_or_imp]
    refine and_congr_left fun _ => ?_
    cases Fields.get? bs k <;> simp

/-- What equality comes to for each kind of values. -/
inductive Alike : Value → Value → Prop where
  | atom {a : Value} (h : a.isAtom = true) : Alike a a
  | double {x y : Double} (h : x.numEq y = true) : Alike (.double x) (.double y)
  | array {as bs : List Value} (h : List.Forall₂ (fun a b => a.equal b = true) as bs) :
      Alike (.array as) (.array bs)
  | document {as bs : Document} (h : Fields.Agree (fun a b => a.equal b = true) as bs) :
      Alike (.document as) (.document bs)

theorem alike_of_equal {a b : Value} (h : a.equal b = true) : Alike a b := by
  unfold equal at h
  split at h
  case h_5 => exact .double h
  case h_7 => exact .array (equalItems_iff.1 h)
  case h_8 =>
    rw [Bool.and_eq_true, decide_eq_true_eq, equalFields_iff] at h
    exact .document h
  case h_11 =>
    rw [Bool.and_eq_true, decide_eq_true_eq, decide_eq_true_eq] at h
    obtain ⟨rfl, rfl⟩ := h
    exact .atom rfl
  case h_18 => cases h
  all_goals
    first
      | exact .atom rfl
      | (cases of_decide_eq_true h; exact .atom rfl)

theorem equal_iff {a b : Value} : a.equal b = true ↔ Alike a b := by
  constructor
  · exact alike_of_equal
  · intro h
    cases h with
    | atom h => cases a <;> simp_all [isAtom, equal]
    | double h => exact h
    | array h => simpa only [equal] using equalItems_iff.2 h
    | document h => simp only [equal, equalFields_iff.2 h.2, h.1, decide_true, Bool.and_self]

/-- Documents equal each other if they have the same keys with equal values. -/
theorem document_equal_iff {a b : Document} : a.equal b = true ↔ Fields.Agree (fun v w => v.equal w = true) a b := by
  rw [Document.equal, equal_iff]
  constructor
  · intro h
    cases h with
    | document h => exact h
    | atom h => cases h
  · exact .document

/-! ## Keys -/

mutual

/-- Whether no document inside the value holds a key twice. -/
def wellKeyed : Value → Bool
  | .array items => wellKeyedItems items
  | .document fields => (Fields.keys fields).Nodup && wellKeyedFields fields
  | _ => true

def wellKeyedItems : List Value → Bool
  | [] => true
  | v :: rest => wellKeyed v && wellKeyedItems rest

def wellKeyedFields : List (String × Value) → Bool
  | [] => true
  | (_, v) :: rest => wellKeyed v && wellKeyedFields rest

end

theorem wellKeyed_array {items : List Value} :
    (array items).wellKeyed = true ↔ ∀ v ∈ items, v.wellKeyed = true := by
  rw [wellKeyed]
  induction items with
  | nil => simp [wellKeyedItems]
  | cons v items ih => simp [wellKeyedItems, ih]

theorem wellKeyed_document {fields : Document} : (document fields).wellKeyed = true ↔
    (Fields.keys fields).Nodup ∧ ∀ p ∈ fields, p.2.wellKeyed = true := by
  have hfields : wellKeyedFields fields = true ↔ ∀ p ∈ fields, p.2.wellKeyed = true := by
    induction fields with
    | nil => simp [wellKeyedFields]
    | cons p fields ih => simp [wellKeyedFields, ih]
  rw [wellKeyed, Bool.and_eq_true, decide_eq_true_eq, hfields]

theorem wellKeyed_of_get? {d : Document} (hd : (document d).wellKeyed = true) {key : String} {v : Value}
    (h : d.get? key = some v) : v.wellKeyed = true :=
  (wellKeyed_document.1 hd).2 _ (Fields.mem_of_get? h)

theorem wellKeyed_insert {d : Document} (hd : (document d).wellKeyed = true) (key : String) {v : Value}
    (hv : v.wellKeyed = true) : (document (d.insert key v)).wellKeyed = true := by
  obtain ⟨hkeys, hvalues⟩ := wellKeyed_document.1 hd
  refine wellKeyed_document.2 ⟨Fields.nodup_keys_insert hkeys key v, fun p hp => ?_⟩
  rcases Fields.mem_insert hp with rfl | hp
  · exact hv
  · exact hvalues p hp

theorem wellKeyed_of_getPath? : ∀ {path : List String} {d : Document} {v : Value},
    (document d).wellKeyed = true → d.getPath? path = some v → v.wellKeyed = true
  | [], _, _, _, h => by cases h
  | [_], _, _, hd, h => wellKeyed_of_get? hd h
  | key :: next :: path, d, v, hd, h => by
    rw [Document.getPath?] at h
    · split at h
      · next hinner => exact wellKeyed_of_getPath? (wellKeyed_of_get? hd hinner) h
      · cases h
    · simp

/-! ## Symmetry and transitivity -/

theorem equal_symm {a b : Value} (ha : a.wellKeyed = true) (h : a.equal b = true) : b.equal a = true := by
  induction a using nested generalizing b with
  | atom a hatom =>
    cases alike_of_equal h with
    | atom => exact h
    | double | array | document => cases hatom
  | double x =>
    cases alike_of_equal h with
    | atom => exact h
    | double h => exact Double.numEq_symm h
  | array as ih =>
    cases alike_of_equal h with
    | atom => exact h
    | array hitems =>
      rw [wellKeyed_array] at ha
      refine equal_iff.2 (.array (forall₂_symm hitems ?_))
      intro a hmem b _ hab
      exact ih a hmem (ha a hmem) hab
  | document as ih =>
    cases alike_of_equal h with
    | atom => exact h
    | document hfields =>
      rw [wellKeyed_document] at ha
      refine equal_iff.2 (.document (hfields.symm ha.1 ?_))
      intro p hp q _ hpq
      exact ih p hp (ha.2 p hp) hpq

theorem equal_trans {a b c : Value} (hab : a.equal b = true) (hbc : b.equal c = true) :
    a.equal c = true := by
  induction a using nested generalizing b c with
  | atom a hatom =>
    cases alike_of_equal hab with
    | atom => exact hbc
    | double | array | document => cases hatom
  | double x =>
    cases alike_of_equal hab with
    | atom => exact hbc
    | double hxy =>
      cases alike_of_equal hbc with
      | atom => exact hab
      | double hyz => exact equal_iff.2 (.double (Double.numEq_trans hxy hyz))
  | array as ih =>
    cases alike_of_equal hab with
    | atom => exact hbc
    | array hitems =>
      cases alike_of_equal hbc with
      | atom => exact hab
      | array hitems' => exact equal_iff.2 (.array (forall₂_trans hitems hitems' fun a ha _ _ => ih a ha))
  | document as ih =>
    cases alike_of_equal hab with
    | atom => exact hbc
    | document hfields =>
      cases alike_of_equal hbc with
      | atom => exact hab
      | document hfields' =>
        exact equal_iff.2 (.document (hfields.trans hfields' fun p hp _ _ => ih p hp))

end Value

/-! ## What comparisons see -/

namespace Operand

theorem ofItems_eq (items : List Value) : ofItems items = items.map ofValue := by
  induction items with
  | nil => rfl
  | cons v items ih => rw [ofItems, ih, List.map_cons]

theorem ofFields_eq (fields : Document) : ofFields fields = fields.map fun p => (p.1, ofValue p.2) := by
  induction fields with
  | nil => rfl
  | cons p fields ih => rw [ofFields, ih, List.map_cons]

theorem equalItems_iff {as bs : List Operand} :
    equalItems as bs = true ↔ List.Forall₂ (fun a b => a.equal b = true) as bs := by
  induction as generalizing bs with
  | nil => cases bs <;> simp [equalItems]
  | cons a as ih => cases bs <;> simp [equalItems, ih]

theorem equalFields_iff {as bs : Fields Operand} : equalFields as bs = true ↔
    ∀ p ∈ as, ∃ b, Fields.get? bs p.1 = some b ∧ p.2.equal b = true := by
  induction as with
  | nil => simp [equalFields]
  | cons p as ih =>
    obtain ⟨k, a⟩ := p
    simp only [equalFields, Bool.and_eq_true, ih, List.mem_cons, forall_eq_or_imp]
    refine and_congr_left fun _ => ?_
    cases Fields.get? bs k <;> simp

/-- Whether two values look equal to comparisons. -/
def looksEqual (a b : Value) : Prop := (ofValue a).equal (ofValue b) = true

theorem looksEqual_array {as bs : List Value} :
    looksEqual (.array as) (.array bs) ↔ List.Forall₂ looksEqual as bs := by
  simp only [looksEqual, ofValue, equal, ofItems_eq, equalItems_iff, List.forall₂_map_left_iff,
    List.forall₂_map_right_iff]
  rfl

theorem looksEqual_document {as bs : Document} :
    looksEqual (.document as) (.document bs) ↔ Fields.Agree looksEqual as bs := by
  simp only [looksEqual, ofValue, equal, ofFields_eq, Bool.and_eq_true, decide_eq_true_eq, List.length_map,
    equalFields_iff, Fields.get?_map, List.forall_mem_map, Option.map_eq_some_iff, Fields.Agree]
  refine and_congr_right fun _ => forall_congr' fun p => ?_
  simp only [exists_exists_and_eq_and]

theorem looksEqual_of_atom {a : Value} (h : a.isAtom = true) : looksEqual a a := by
  cases a with
  | int32 i => exact Double.numEq_self (Double.isNaN_ofRatio _ _ _)
  | int64 i => exact Double.numEq_self (Double.isNaN_ofRatio _ _ _)
  | double | array | document => cases h
  | _ => simp [looksEqual, ofValue, equal]

/-- Equal values look equal. -/
theorem looksEqual_of_equal {a b : Value} (h : a.equal b = true) : looksEqual a b := by
  induction a using Value.nested generalizing b with
  | atom a hatom =>
    cases Value.alike_of_equal h with
    | atom => exact looksEqual_of_atom hatom
    | double | array | document => cases hatom
  | double x =>
    cases Value.alike_of_equal h with
    | atom hatom => cases hatom
    | double hxy => exact hxy
  | array as ih =>
    cases Value.alike_of_equal h with
    | atom hatom => cases hatom
    | array hitems => exact looksEqual_array.2 (forall₂_mono hitems fun a ha _ _ => ih a ha)
  | document as ih =>
    cases Value.alike_of_equal h with
    | atom hatom => cases hatom
    | document hfields => exact looksEqual_document.2 (hfields.mono fun p hp _ _ => ih p hp)

/-- Whether an operand holds no other operands. -/
def isFlat : Operand → Bool
  | .array _ | .map _ => false
  | _ => true

theorem isFlat_ofValue (v : Value) : (ofValue v).isFlat = v.isLeaf := by
  cases v <;> rfl

/-- Operands that hold no others are equal if they are the same, or equal numbers. -/
theorem cases_of_flat {x y : Operand} (hx : x.isFlat = true) (h : x.equal y = true) :
    x = y ∨ ∃ a b, x = .number a ∧ y = .number b ∧ a.numEq b = true := by
  unfold equal at h
  split at h
  case h_3 a b => exact .inr ⟨a, b, rfl, rfl, h⟩
  case h_7 | h_8 => cases hx
  case h_9 => cases h
  case h_1 => exact .inl rfl
  all_goals
    rw [decide_eq_true_eq] at h
    exact .inl (congrArg _ h)

theorem equal_symm_of_flat {x y : Operand} (hx : x.isFlat = true) (h : x.equal y = true) :
    y.equal x = true := by
  rcases cases_of_flat hx h with rfl | ⟨a, b, rfl, rfl, hab⟩
  · exact h
  · exact Double.numEq_symm hab

theorem equal_trans_of_flat {x y z : Operand} (hx : x.isFlat = true) (hxy : x.equal y = true)
    (hyz : y.equal z = true) : x.equal z = true := by
  rcases cases_of_flat hx hxy with rfl | ⟨a, b, rfl, rfl, hab⟩
  · exact hyz
  · rcases cases_of_flat rfl hyz with rfl | ⟨b', c, hb, rfl, hbc⟩
    · exact hab
    · cases hb
      exact Double.numEq_trans hab hbc

theorem looksEqual_symm {a b : Value} (ha : a.wellKeyed = true) (h : looksEqual a b) : looksEqual b a := by
  induction a using Value.nestedLeaves generalizing b with
  | leaf a hleaf => exact equal_symm_of_flat ((isFlat_ofValue a).trans hleaf) h
  | array as ih =>
    cases b with
    | array bs =>
      rw [looksEqual_array] at h ⊢
      rw [Value.wellKeyed_array] at ha
      exact forall₂_symm h fun a hmem b _ hab => ih a hmem (ha a hmem) hab
    | _ => simp [looksEqual, ofValue, equal] at h
  | document as ih =>
    cases b with
    | document bs =>
      rw [looksEqual_document] at h ⊢
      rw [Value.wellKeyed_document] at ha
      exact h.symm ha.1 fun p hp q _ hpq => ih p hp (ha.2 p hp) hpq
    | _ => simp [looksEqual, ofValue, equal] at h

theorem looksEqual_trans {a b c : Value} (hab : looksEqual a b) (hbc : looksEqual b c) : looksEqual a c := by
  induction a using Value.nestedLeaves generalizing b c with
  | leaf a hleaf => exact equal_trans_of_flat ((isFlat_ofValue a).trans hleaf) hab hbc
  | array as ih =>
    cases b with
    | array bs =>
      cases c with
      | array cs =>
        rw [looksEqual_array] at hab hbc ⊢
        exact forall₂_trans hab hbc fun a ha _ _ => ih a ha
      | _ => simp [looksEqual, ofValue, equal] at hbc
    | _ => simp [looksEqual, ofValue, equal] at hab
  | document as ih =>
    cases b with
    | document bs =>
      cases c with
      | document cs =>
        rw [looksEqual_document] at hab hbc ⊢
        exact hab.trans hbc fun p hp _ _ => ih p hp
      | _ => simp [looksEqual, ofValue, equal] at hbc
    | _ => simp [looksEqual, ofValue, equal] at hab

end Operand
end Docbase
