/-
Equality of values up to the type of their numbers (`NumericallyEqual`), against the equality that
comparisons see. Comparisons take a value of a type without an order for null, at any depth. So values
look equal iff they are numerically equal once all of those are null (`looksEqual_iff`), and there is a
value that looks equal to a given one, but is not, as soon as anything in it looks like null
(`exists_lookalike`).

`mapLeaves` rewrites the values inside a value that hold no others; `Occurs` says what is inside a value.
-/
import Docbase.Proofs.Value.Equality

namespace Docbase

namespace Value

/-! ## Rewriting the leaves -/

mutual

/-- A value with everything in it that holds no other values rewritten. -/
def mapLeaves (g : Value → Value) : Value → Value
  | .array items => .array (mapItems g items)
  | .document fields => .document (mapFields g fields)
  | v => g v

def mapItems (g : Value → Value) : List Value → List Value
  | [] => []
  | v :: rest => mapLeaves g v :: mapItems g rest

def mapFields (g : Value → Value) : List (String × Value) → List (String × Value)
  | [] => []
  | (k, v) :: rest => (k, mapLeaves g v) :: mapFields g rest

end

section

variable {g : Value → Value} {u v : Value}

theorem mapLeaves_array (g : Value → Value) (items : List Value) :
    mapLeaves g (.array items) = .array (items.map (mapLeaves g)) := by
  rw [mapLeaves]
  induction items with
  | nil => rfl
  | cons v items ih => rw [mapItems, array.inj ih, List.map_cons]

theorem mapLeaves_document (g : Value → Value) (fields : Document) :
    mapLeaves g (.document fields) = .document (fields.map fun p => (p.1, mapLeaves g p.2)) := by
  rw [mapLeaves]
  induction fields with
  | nil => rfl
  | cons p fields ih => rw [mapFields, document.inj ih, List.map_cons]

theorem mapLeaves_leaf (h : v.isLeaf = true) : mapLeaves g v = g v := by
  cases v <;> first | rfl | cases h

theorem wellKeyed_of_isLeaf (h : v.isLeaf = true) : v.wellKeyed = true := by
  cases v <;> first | rfl | cases h

theorem wellKeyed_mapLeaves (hg : ∀ leaf, leaf.isLeaf = true → (g leaf).isLeaf = true)
    (h : v.wellKeyed = true) : (mapLeaves g v).wellKeyed = true := by
  induction v using nestedLeaves with
  | leaf v hleaf =>
    rw [mapLeaves_leaf hleaf]
    exact wellKeyed_of_isLeaf (hg v hleaf)
  | array items ih =>
    rw [wellKeyed_array] at h
    rw [mapLeaves_array, wellKeyed_array, List.forall_mem_map]
    exact fun v hv => ih v hv (h v hv)
  | document fields ih =>
    rw [wellKeyed_document] at h
    rw [mapLeaves_document, wellKeyed_document, List.forall_mem_map]
    refine ⟨?_, fun p hp => ih p hp (h.2 p hp)⟩
    rw [Fields.keys, List.map_map]
    exact h.1

/-! ## What is inside a value -/

/-- `u` is the value, or is somewhere inside it. -/
inductive Occurs (u : Value) : Value → Prop where
  | self : Occurs u u
  | item {items : List Value} {v : Value} (hv : v ∈ items) (h : Occurs u v) : Occurs u (.array items)
  | field {fields : Document} {p : String × Value} (hp : p ∈ fields) (h : Occurs u p.2) :
      Occurs u (.document fields)

theorem wellKeyed_of_occurs (hv : v.wellKeyed = true) (h : Occurs u v) : u.wellKeyed = true := by
  induction h with
  | self => exact hv
  | item hmem _ ih => exact ih (wellKeyed_array.1 hv _ hmem)
  | field hp _ ih => exact ih ((wellKeyed_document.1 hv).2 _ hp)

theorem Occurs.trans {w : Value} (hu : Occurs u v) (hv : Occurs v w) : Occurs u w := by
  induction hv with
  | self => exact hu
  | item hmem _ ih => exact .item hmem ih
  | field hp _ ih => exact .field hp ih

theorem eq_of_occurs_leaf (hv : v.isLeaf = true) (h : Occurs u v) : u = v := by
  cases h with
  | self => rfl
  | item | field => cases hv

/-- Every leaf of a value with rewritten leaves is one that was rewritten. -/
theorem occurs_mapLeaves (hg : ∀ leaf, leaf.isLeaf = true → (g leaf).isLeaf = true)
    (h : Occurs u (mapLeaves g v)) (hu : u.isLeaf = true) : ∃ leaf, leaf.isLeaf = true ∧ u = g leaf := by
  induction v using nestedLeaves with
  | leaf v hleaf =>
    rw [mapLeaves_leaf hleaf] at h
    exact ⟨v, hleaf, eq_of_occurs_leaf (hg v hleaf) h⟩
  | array items ih =>
    rw [mapLeaves_array] at h
    cases h with
    | self => cases hu
    | item hv h =>
      obtain ⟨v, hmem, rfl⟩ := List.mem_map.1 hv
      exact ih v hmem h
  | document fields ih =>
    rw [mapLeaves_document] at h
    cases h with
    | self => cases hu
    | field hp h =>
      obtain ⟨p, hmem, rfl⟩ := List.mem_map.1 hp
      exact ih p hmem h

end

/-! ## Numeric equality -/

/-- A number as a double. -/
def toDouble : Value → Value
  | .int32 i => .double (.ofInt i.toInt)
  | .int64 i => .double (.ofInt i.toInt)
  | v => v

/-- The same type and content, at every depth, except that numbers are equal if their doubles are. -/
def NumericallyEqual (a b : Value) : Prop := (a.mapLeaves toDouble).equal (b.mapLeaves toDouble) = true

open Operand (ofValue looksEqual looksEqual_array looksEqual_document)

variable {a b u v w : Value}

theorem isLeaf_toDouble (h : v.isLeaf = true) : v.toDouble.isLeaf = true := by
  cases v <;> first | rfl | cases h

theorem numericallyEqual_leaf (ha : a.isLeaf = true) (hb : b.isLeaf = true) :
    NumericallyEqual a b ↔ a.toDouble.equal b.toDouble = true := by
  rw [NumericallyEqual, mapLeaves_leaf ha, mapLeaves_leaf hb]

theorem numericallyEqual_array {as bs : List Value} :
    NumericallyEqual (.array as) (.array bs) ↔ List.Forall₂ NumericallyEqual as bs := by
  simp only [NumericallyEqual, mapLeaves_array, equal, equalItems_iff, List.forall₂_map_left_iff,
    List.forall₂_map_right_iff]
  rfl

theorem numericallyEqual_document {as bs : Document} :
    NumericallyEqual (.document as) (.document bs) ↔ Fields.Agree NumericallyEqual as bs := by
  simp only [NumericallyEqual, mapLeaves_document, equal, Bool.and_eq_true, decide_eq_true_eq, List.length_map,
    equalFields_iff, Fields.get?_map, List.forall_mem_map, Option.map_eq_some_iff, Fields.Agree]
  refine and_congr_right fun _ => forall_congr' fun p => ?_
  simp only [exists_exists_and_eq_and]

theorem numericallyEqual_symm (ha : a.wellKeyed = true) (h : NumericallyEqual a b) : NumericallyEqual b a :=
  equal_symm (wellKeyed_mapLeaves (fun _ => isLeaf_toDouble) ha) h

/-- What is inside a value has an equal inside each value that is equal to it. -/
theorem exists_occurs_of_numericallyEqual (hu : Occurs u a) (h : NumericallyEqual a b) :
    ∃ w, Occurs w b ∧ NumericallyEqual u w := by
  induction hu generalizing b with
  | self => exact ⟨b, .self, h⟩
  | item hv _ ih =>
    cases b with
    | array bs =>
      obtain ⟨b, hb, hab⟩ := exists_of_mem_forall₂ (numericallyEqual_array.1 h) hv
      obtain ⟨w, hw, huw⟩ := ih hab
      exact ⟨w, .item hb hw, huw⟩
    | _ => simp [NumericallyEqual, mapLeaves, toDouble, equal] at h
  | field hp _ ih =>
    cases b with
    | document bs =>
      obtain ⟨b, hb, hab⟩ := (numericallyEqual_document.1 h).2 _ hp
      obtain ⟨w, hw, huw⟩ := ih hab
      exact ⟨w, .field (Fields.mem_of_get? hb) hw, huw⟩
    | _ => simp [NumericallyEqual, mapLeaves, toDouble, equal] at h

/-! ## What looks equal -/

theorem ofValue_mapLeaves {g : Value → Value} (hg : ∀ leaf, leaf.isLeaf = true → ofValue (g leaf) = ofValue leaf)
    (v : Value) : ofValue (mapLeaves g v) = ofValue v := by
  induction v using nestedLeaves with
  | leaf v hleaf => rw [mapLeaves_leaf hleaf, hg v hleaf]
  | array items ih =>
    rw [mapLeaves_array, ofValue, ofValue, Operand.ofItems_eq, Operand.ofItems_eq, List.map_map]
    exact congrArg _ (List.map_congr_left ih)
  | document fields ih =>
    rw [mapLeaves_document, ofValue, ofValue, Operand.ofFields_eq, Operand.ofFields_eq, List.map_map]
    exact congrArg _ (List.map_congr_left fun p hp => congrArg (p.1, ·) (ih p hp))

theorem looksEqual_of_numericallyEqual (h : NumericallyEqual a b) : looksEqual a b := by
  have hdouble (v : Value) : ofValue (v.mapLeaves toDouble) = ofValue v :=
    ofValue_mapLeaves (fun leaf _ => by cases leaf <;> rfl) v
  have hlooks := Operand.looksEqual_of_equal h
  rwa [looksEqual, hdouble, hdouble] at hlooks

/-- A value looks equal to itself iff it is, which it is unless it holds NaN. -/
theorem looksEqual_self_iff (hv : v.wellKeyed = true) : looksEqual v v ↔ v.equal v = true := by
  refine ⟨fun h => ?_, Operand.looksEqual_of_equal⟩
  induction v using nested with
  | atom v hatom => exact equal_iff.2 (.atom hatom)
  | double x => exact h
  | array items ih =>
    rw [looksEqual_array, List.forall₂_same] at h
    rw [wellKeyed_array] at hv
    exact equal_iff.2 (.array (List.forall₂_same.2 fun v hmem => ih v hmem (hv v hmem) (h v hmem)))
  | document fields ih =>
    rw [looksEqual_document] at h
    rw [wellKeyed_document] at hv
    refine equal_iff.2 (.document ⟨rfl, fun p hp => ?_⟩)
    obtain ⟨v, hv', hpv⟩ := h.2 p hp
    have hget := Fields.get?_of_mem hv.1 hp
    cases hv'.symm.trans hget
    exact ⟨p.2, hget, ih p hp (hv.2 p hp) hpv⟩

/-! ## What looks like null -/

theorem ofValue_eq_null_iff (h : looksEqual a b) : ofValue a = .null ↔ ofValue b = .null := by
  unfold looksEqual at h
  constructor
  · intro ha
    rw [ha] at h
    cases hb : ofValue b with
    | null => rfl
    | _ => rw [hb] at h; cases h
  · intro hb
    rw [hb] at h
    cases ha : ofValue a with
    | null => rfl
    | _ => rw [ha] at h; cases h

theorem isLeaf_of_null (h : ofValue v = .null) : v.isLeaf = true := by
  rw [← Operand.isFlat_ofValue, h]
  rfl

theorem toDouble_of_null (h : ofValue v = .null) : v.toDouble = v := by
  cases v <;> first | rfl | cases h

theorem equal_self_of_null (h : ofValue v = .null) : v.equal v = true := by
  refine equal_iff.2 (.atom ?_)
  cases v <;> first | rfl | cases h

/-- Values that look like null are numerically equal only if they are the same. -/
theorem eq_of_numericallyEqual_of_null (h : NumericallyEqual a b) (ha : ofValue a = .null) : a = b := by
  have hb := (ofValue_eq_null_iff (looksEqual_of_numericallyEqual h)).1 ha
  rw [numericallyEqual_leaf (isLeaf_of_null ha) (isLeaf_of_null hb), toDouble_of_null ha, toDouble_of_null hb] at h
  cases alike_of_equal h with
  | atom => rfl
  | double | array | document => cases ha

end Value

namespace Operand

/-- A value that an operand which holds no others is seen of, with numbers as doubles. -/
def toLeaf : Operand → Value
  | .bool b => .bool b
  | .number x => .double x
  | .string s => .string s
  | .date ms => .date ms
  | .objectId id => .objectId id
  | .null | .array _ | .map _ => .null

theorem equal_toLeaf {x y : Operand} (hx : x.isFlat = true) (hy : y.isFlat = true) :
    x.toLeaf.equal y.toLeaf = x.equal y := by
  cases x with
  | array | map => cases hx
  | _ =>
    cases y with
    | array | map => cases hy
    | _ => rfl

theorem toLeaf_ofValue {v : Value} (hv : v.isLeaf = true) (hnull : ofValue v ≠ .null) :
    (ofValue v).toLeaf = v.toDouble := by
  cases v <;> first | rfl | exact absurd rfl hnull | cases hv

theorem isFlat_eq_of_equal {x y : Operand} (h : x.equal y = true) : x.isFlat = y.isFlat := by
  unfold equal at h
  split at h <;> first | rfl | cases h

end Operand

namespace Value

open Operand (ofValue looksEqual looksEqual_array looksEqual_document)

variable {a b u v w : Value}

/-- What looks equal is numerically equal, as long as nothing in the two values looks like null both times
without being the same. -/
theorem numericallyEqual_of_looksEqual (h : looksEqual a b)
    (hnull : ∀ u w, Occurs u a → Occurs w b → ofValue u = .null → ofValue w = .null → u = w) :
    NumericallyEqual a b := by
  induction a using nestedLeaves generalizing b with
  | leaf a ha =>
    have hb : b.isLeaf = true := by
      rw [← Operand.isFlat_ofValue, ← Operand.isFlat_eq_of_equal h, Operand.isFlat_ofValue, ha]
    rw [numericallyEqual_leaf ha hb]
    -- An operand tells all of a leaf but which of the values that look like null it is.
    by_cases ha' : ofValue a = .null
    · obtain rfl := hnull a b .self .self ha' ((ofValue_eq_null_iff h).1 ha')
      rw [toDouble_of_null ha']
      exact equal_self_of_null ha'
    · have hb' : ofValue b ≠ .null := mt (ofValue_eq_null_iff h).2 ha'
      rw [← Operand.toLeaf_ofValue ha ha', ← Operand.toLeaf_ofValue hb hb', Operand.equal_toLeaf]
      · exact h
      · rw [Operand.isFlat_ofValue, ha]
      · rw [Operand.isFlat_ofValue, hb]
  | array as ih =>
    cases b with
    | array bs =>
      refine numericallyEqual_array.2 (forall₂_mono (looksEqual_array.1 h) fun a ha b hb hab => ?_)
      exact ih a ha hab fun u w hu hw => hnull u w (.item ha hu) (.item hb hw)
    | _ => simp [looksEqual, ofValue, Operand.equal] at h
  | document as ih =>
    cases b with
    | document bs =>
      refine numericallyEqual_document.2 ((looksEqual_document.1 h).mono fun p hp q hq hpq => ?_)
      exact ih p hp hpq fun u w hu hw => hnull u w (.field hp hu) (.field hq hw)
    | _ => simp [looksEqual, ofValue, Operand.equal] at h

/-- A leaf, or another value if the leaf looks like null. -/
def replaceNull (u leaf : Value) : Value :=
  match ofValue leaf with
  | .null => u
  | _ => leaf

/-- A value with another in the place of everything in it that looks like null. -/
def withNulls (v u : Value) : Value := v.mapLeaves (replaceNull u)

/-- A value with null in the place of everything in it that looks like null. -/
def blank (v : Value) : Value := v.withNulls .null

theorem replaceNull_cases (u leaf : Value) :
    (ofValue leaf = .null ∧ replaceNull u leaf = u) ∨ (ofValue leaf ≠ .null ∧ replaceNull u leaf = leaf) := by
  unfold replaceNull
  split
  · next h => exact .inl ⟨h, rfl⟩
  · next h => exact .inr ⟨h, rfl⟩

theorem isLeaf_replaceNull (hu : ofValue u = .null) (leaf : Value) (hleaf : leaf.isLeaf = true) :
    (replaceNull u leaf).isLeaf = true := by
  rcases replaceNull_cases u leaf with ⟨-, h⟩ | ⟨-, h⟩ <;> rw [h]
  · exact isLeaf_of_null hu
  · exact hleaf

theorem ofValue_withNulls (hu : ofValue u = .null) (v : Value) : ofValue (v.withNulls u) = ofValue v := by
  refine ofValue_mapLeaves (fun leaf _ => ?_) v
  rcases replaceNull_cases u leaf with ⟨hleaf, h⟩ | ⟨-, h⟩ <;> rw [h]
  rw [hu, hleaf]

theorem wellKeyed_withNulls (hu : ofValue u = .null) (hv : v.wellKeyed = true) : (v.withNulls u).wellKeyed = true :=
  wellKeyed_mapLeaves (isLeaf_replaceNull hu) hv

theorem eq_of_occurs_withNulls (hu : ofValue u = .null) (h : Occurs w (v.withNulls u)) (hw : ofValue w = .null) :
    w = u := by
  obtain ⟨leaf, -, rfl⟩ := occurs_mapLeaves (isLeaf_replaceNull hu) h (isLeaf_of_null hw)
  rcases replaceNull_cases u leaf with ⟨-, h⟩ | ⟨hleaf, h⟩
  · exact h
  · rw [h] at hw
    exact absurd hw hleaf

theorem blank_eq_null_iff : v.blank = .null ↔ ofValue v = .null := by
  constructor
  · intro h
    have hblank := congrArg ofValue h
    rwa [blank, ofValue_withNulls rfl] at hblank
  · intro h
    rw [blank, withNulls, mapLeaves_leaf (isLeaf_of_null h), replaceNull, h]

/-- **Values look equal iff they are numerically equal once everything that looks like null is null.** -/
theorem looksEqual_iff : looksEqual a b ↔ NumericallyEqual a.blank b.blank := by
  have hblank (v : Value) : ofValue v.blank = ofValue v := ofValue_withNulls rfl v
  constructor
  · intro h
    refine numericallyEqual_of_looksEqual (by rwa [looksEqual, hblank, hblank]) fun u w hu hw hu' hw' => ?_
    rw [eq_of_occurs_withNulls rfl hu hu', eq_of_occurs_withNulls rfl hw hw']
  · intro h
    have hlooks := looksEqual_of_numericallyEqual h
    rwa [looksEqual, hblank, hblank] at hlooks

/-- Where something in a value looks like null, no value is numerically equal to it that has another value
in every such place. -/
theorem not_numericallyEqual_of_occurs {u' : Value} (hw : w.wellKeyed = true) (hu : Occurs u v)
    (hnull : ofValue u = .null) (hne : u' ≠ u) (hw' : ∀ x, Occurs x w → ofValue x = .null → x = u') :
    ¬NumericallyEqual w v := by
  intro h
  obtain ⟨x, hx, hux⟩ := exists_occurs_of_numericallyEqual hu (numericallyEqual_symm hw h)
  have hsame := eq_of_numericallyEqual_of_null hux hnull
  subst hsame
  exact hne (hw' u hx hnull).symm

/-- Where something in a value looks like null, another value looks equal to it that is not numerically
equal to it, nor has an item that is. -/
theorem exists_lookalike (hv : v.wellKeyed = true) (hself : v.equal v = true) (hu : Occurs u v)
    (hnull : ofValue u = .null) : ∃ w, w.wellKeyed = true ∧ looksEqual w v ∧ ¬NumericallyEqual w v ∧
      ∀ items, w = .array items → ∀ item ∈ items, ¬NumericallyEqual item v := by
  -- All that looks like null in `v` is made the same, and other than `u`.
  obtain ⟨u', hu', hne⟩ : ∃ u', ofValue u' = .null ∧ u' ≠ u := by
    by_cases h : u = .null
    · exact ⟨.undefined, rfl, by rw [h]; exact Value.noConfusion⟩
    · exact ⟨.null, rfl, Ne.symm h⟩
  have hw := wellKeyed_withNulls hu' hv
  have honly : ∀ x, Occurs x (v.withNulls u') → ofValue x = .null → x = u' :=
    fun x => eq_of_occurs_withNulls hu'
  refine ⟨v.withNulls u', hw, ?_, not_numericallyEqual_of_occurs hw hu hnull hne honly, ?_⟩
  · rw [looksEqual, ofValue_withNulls hu']
    exact (looksEqual_self_iff hv).2 hself
  · intro items heq item hitem
    rw [heq] at hw honly
    rw [wellKeyed_array] at hw
    exact not_numericallyEqual_of_occurs (hw item hitem) hu hnull hne fun x hx => honly x (.item hitem hx)

end Value
end Docbase
