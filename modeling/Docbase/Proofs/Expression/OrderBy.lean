/-
Order-by tokens. A token is cut at its last underscore into a field and a direction, and the
direction is read in any ASCII case (`sort?_eq_some_iff`).

The fields of queries are made of key characters; the field of an order-by token is any text that is
not empty (`orderBy_iff`).
-/
import Docbase.Proofs.Expression.Accepted

namespace Docbase

/-- The word for a direction in order-by tokens. -/
def SortDirection.word : SortDirection → List Char
  | .asc => ['a', 's', 'c']
  | .desc => ['d', 'e', 's', 'c']

namespace Expression

/-- Tokens that are a field, an underscore and the word of a direction in any ASCII case. -/
structure Orders (token field : List Char) (direction : SortDirection) : Prop where
  field_ne : field ≠ []
  token_eq : ∃ word, token = field ++ '_' :: word ∧ word.map Char.toLower = direction.word

theorem direction?_eq_some_iff {word : List Char} {d : SortDirection} :
    direction? word = some d ↔ word.map Char.toLower = d.word := by
  unfold direction?
  split
  · next hasc => cases d <;> simp [SortDirection.word, hasc]
  · next hasc =>
    split
    · next hdesc => cases d <;> simp [SortDirection.word, hdesc]
    · next hdesc => cases d <;> simp [SortDirection.word, hasc, hdesc]

/-- No word of a direction holds an underscore. -/
theorem not_mem_of_direction {word : List Char} {d : SortDirection} (h : word.map Char.toLower = d.word) :
    '_' ∉ word := by
  intro hmem
  have hlower : Char.toLower '_' ∈ d.word := h ▸ List.mem_map_of_mem hmem
  cases d <;> exact absurd hlower (by decide)

/-- **A token is read as a sort order iff it is the field of that order, an underscore and its
direction.** -/
theorem sort?_eq_some_iff {token : List Char} {s : SortOrder} :
    sort? token = some s ↔ ∃ field d, Orders token field d ∧ s = ⟨String.ofList field, d⟩ := by
  constructor
  · intro h
    unfold sort? at h
    split at h
    · next field word hsplit =>
      obtain ⟨rfl, -⟩ := Text.splitLast?_eq_some_iff.1 hsplit
      split at h
      · cases h
      · next hne =>
        obtain ⟨d, hd, rfl⟩ := Option.map_eq_some_iff.1 h
        exact ⟨field, d, ⟨by simpa using hne, word, rfl, direction?_eq_some_iff.1 hd⟩, rfl⟩
    · cases h
  · rintro ⟨field, d, ⟨hne, word, rfl, hword⟩, rfl⟩
    have hempty : field.isEmpty = false := by simpa using hne
    have hsplit := Text.splitLast?_append field (not_mem_of_direction hword)
    simp only [sort?, hsplit, hempty, Bool.false_eq_true, if_false, direction?_eq_some_iff.2 hword,
      Option.map_some]

theorem Orders.eq_of_orders {token field field' : List Char} {d d' : SortDirection} (h : Orders token field d)
    (h' : Orders token field' d') : field = field' ∧ d = d' := by
  have hsort := sort?_eq_some_iff.2 ⟨field, d, h, rfl⟩
  rw [sort?_eq_some_iff.2 ⟨field', d', h', rfl⟩, Option.some.injEq, SortOrder.mk.injEq, String.ofList_inj] at hsort
  exact ⟨hsort.1.symm, hsort.2.symm⟩

section

variable {query token : String} {base : Filter}

theorem compile_token_eq_ok_iff (hbase : compile (ofTokens none query) = .ok base) (htoken : Text.trim token ≠ "")
    {f : Filter} : compile (ofTokens (some token) query) = .ok f ↔
      ∃ field d, Orders (Text.trim token).toList field d ∧ f = base.sortBy ⟨String.ofList field, d⟩ := by
  rw [compile_token hbase htoken]
  constructor
  · intro h
    cases hsort : sort? (Text.trim token).toList with
    | none => rw [hsort] at h; cases h
    | some sort =>
      rw [hsort] at h
      cases h
      obtain ⟨field, d, horders, rfl⟩ := sort?_eq_some_iff.1 hsort
      exact ⟨field, d, horders, rfl⟩
  · rintro ⟨field, d, horders, rfl⟩
    rw [sort?_eq_some_iff.2 ⟨field, d, horders, rfl⟩, Option.elim_some]

theorem compile_token_eq_error (hbase : compile (ofTokens none query) = .ok base) (htoken : Text.trim token ≠ "")
    (h : ¬∃ field d, Orders (Text.trim token).toList field d) :
    compile (ofTokens (some token) query) = .error (.invalidExpression (Text.trim token)) := by
  rw [compile_token hbase htoken]
  cases hsort : sort? (Text.trim token).toList with
  | none => rfl
  | some sort =>
    obtain ⟨field, d, horders, -⟩ := sort?_eq_some_iff.1 hsort
    exact absurd ⟨field, d, horders⟩ h

/-- **An order-by token sorts by any field that is not empty.** A token that is not blank, with a query
that compiles, compiles iff it is a field, an underscore and a direction; the query's filter is then
sorted by that field in that direction, and any other token is refused. So the tokens with a field of
key characters are the only ones that sort iff the field of the token, if it has one, is made of key
characters. -/
theorem orderBy_iff (hbase : compile (ofTokens none query) = .ok base) (htoken : Text.trim token ≠ "") :
    (∀ f, compile (ofTokens (some token) query) = .ok f ↔
      ∃ field d, Orders (Text.trim token).toList field d ∧ f = base.sortBy ⟨String.ofList field, d⟩) ∧
    ((¬∃ field d, Orders (Text.trim token).toList field d) →
      compile (ofTokens (some token) query) = .error (.invalidExpression (Text.trim token))) ∧
    (((∀ f, compile (ofTokens (some token) query) = .ok f ↔
          ∃ field d, Orders (Text.trim token).toList field d ∧ (∀ c ∈ field, isKeyChar c = true) ∧
            f = base.sortBy ⟨String.ofList field, d⟩) ∧
        ((¬∃ field d, Orders (Text.trim token).toList field d ∧ ∀ c ∈ field, isKeyChar c = true) →
          compile (ofTokens (some token) query) = .error (.invalidExpression (Text.trim token)))) ↔
      ∀ field d, Orders (Text.trim token).toList field d → ∀ c ∈ field, isKeyChar c = true) := by
  refine ⟨fun f => compile_token_eq_ok_iff hbase htoken, compile_token_eq_error hbase htoken, ?_, ?_⟩
  · rintro ⟨hkeyed, -⟩ field d horders
    have hok := (compile_token_eq_ok_iff hbase htoken).2 ⟨field, d, horders, rfl⟩
    obtain ⟨field', d', horders', hchars, -⟩ := (hkeyed _).1 hok
    rw [(horders.eq_of_orders horders').1]
    exact hchars
  · intro hkeys
    refine ⟨fun f => ?_, fun hnone => compile_token_eq_error hbase htoken ?_⟩
    · rw [compile_token_eq_ok_iff hbase htoken]
      constructor
      · rintro ⟨field, d, horders, hf⟩
        exact ⟨field, d, horders, hkeys field d horders, hf⟩
      · rintro ⟨field, d, horders, -, hf⟩
        exact ⟨field, d, horders, hf⟩
    · rintro ⟨field, d, horders⟩
      exact hnone ⟨field, d, horders, hkeys field d horders⟩

/-- A field with an underscore, on a query with a term; and a token whose direction is unknown. -/
theorem orderBy_of_created_at :
    compile (ofTokens (some " created_at_DESC ") "a_eq=1") =
        .ok ⟨some (.compare "a" .eq (.string "1")), some ⟨"created_at", .desc⟩⟩ ∧
      compile (ofTokens (some "name_up") "") = .error (.invalidExpression "name_up") := by
  have hquery : compile (ofTokens none "a_eq=1") = .ok (.ofPredicate (.compare "a" .eq (.string "1"))) := rfl
  have hempty : compile (ofTokens none "") = .ok .empty := rfl
  have horders : Orders (Text.trim " created_at_DESC ").toList "created_at".toList .desc :=
    ⟨by decide, "DESC".toList, rfl, rfl⟩
  have hnone : ¬∃ field d, Orders (Text.trim "name_up").toList field d := by
    rintro ⟨field, d, h⟩
    have hsort := sort?_eq_some_iff.2 ⟨field, d, h, rfl⟩
    exact absurd hsort (by simp [show sort? (Text.trim "name_up").toList = none from rfl])
  exact ⟨((orderBy_iff hquery (by decide)).1 _).2 ⟨_, .desc, horders, rfl⟩,
    (orderBy_iff hempty (by decide)).2.1 hnone⟩

/-- The field of a token may have a space in it. -/
theorem orderBy_with_space :
    Orders (Text.trim "a b_asc").toList ['a', ' ', 'b'] .asc ∧ isKeyChar ' ' = false ∧
      compile (ofTokens (some "a b_asc") "") = .ok ⟨none, some ⟨"a b", .asc⟩⟩ :=
  ⟨⟨by decide, "asc".toList, rfl, rfl⟩, by decide, rfl⟩

end

end Expression
end Docbase
