/-
Association lists as what they hold. A list made of pairs holds under each key the
last value that the pairs have for it (`get?_ofPairs`), and has as many entries as
the pairs have keys (`length_ofPairs`).

`Fields.Agree` relates two lists that have as many entries and whose values under
each key are related, in whatever order the keys stand. It is how documents are
compared, and with each key once it is as symmetric and as transitive as the
relation of the values is (`Agree.symm`, `Agree.trans`).
-/
import Docbase.Fields
import Mathlib.Data.Finset.Card
import Mathlib.Data.List.Dedup

namespace Docbase.Fields

variable {α β : Type}

theorem mem_of_get? {xs : Fields α} {key : String} {v : α} (h : get? xs key = some v) : (key, v) ∈ xs := by
  induction xs with
  | nil => cases h
  | cons p rest ih =>
    obtain ⟨k, w⟩ := p
    rw [get?] at h
    split at h
    · next hk => cases h; simp [hk]
    · exact List.mem_cons_of_mem _ (ih h)

theorem get?_of_mem {xs : Fields α} (hkeys : (keys xs).Nodup) {key : String} {v : α} (h : (key, v) ∈ xs) :
    get? xs key = some v := by
  induction xs with
  | nil => simp at h
  | cons p rest ih =>
    obtain ⟨k, w⟩ := p
    simp only [keys, List.map_cons, List.nodup_cons] at hkeys
    rw [get?]
    rcases List.mem_cons.1 h with heq | hrest
    · cases heq; simp
    · have hk : k ≠ key := by
        rintro rfl
        exact hkeys.1 (List.mem_map_of_mem hrest)
      rw [if_neg hk]
      exact ih hkeys.2 hrest

theorem mem_keys_of_get? {xs : Fields α} {key : String} {v : α} (h : get? xs key = some v) :
    key ∈ keys xs := List.mem_map_of_mem (mem_of_get? h)

theorem get?_eq_none_iff {xs : Fields α} {key : String} : get? xs key = none ↔ key ∉ keys xs := by
  induction xs with
  | nil => simp [get?, keys]
  | cons p rest ih =>
    obtain ⟨k, w⟩ := p
    rw [get?, keys, List.map_cons, List.mem_cons, not_or]
    by_cases hk : k = key
    · simp [hk]
    · rw [if_neg hk, ih, keys]
      exact (and_iff_right (Ne.symm hk)).symm

theorem isSome_get?_iff {xs : Fields α} {key : String} : (get? xs key).isSome = true ↔ key ∈ keys xs := by
  rw [Option.isSome_iff_ne_none, Ne, get?_eq_none_iff, not_not]

theorem get?_map (f : α → β) (xs : Fields α) (key : String) :
    get? (xs.map fun p => (p.1, f p.2)) key = (get? xs key).map f := by
  induction xs with
  | nil => rfl
  | cons p rest ih =>
    simp only [List.map_cons, get?]
    split
    · rfl
    · exact ih

/-- With each key once, the order of the entries does not matter. -/
theorem get?_of_perm {xs ys : Fields α} (h : xs.Perm ys) (hys : (keys ys).Nodup) (key : String) :
    get? xs key = get? ys key := by
  have hxs : (keys xs).Nodup := (h.map Prod.fst).nodup_iff.2 hys
  refine Option.ext fun v => ⟨fun hget => ?_, fun hget => ?_⟩
  · exact get?_of_mem hys (h.mem_iff.1 (mem_of_get? hget))
  · exact get?_of_mem hxs (h.mem_iff.2 (mem_of_get? hget))

/-- A value is found under the new name of its key, if no other key gets that name. -/
theorem get?_renamed {f : String → String} {xs : Fields α} {key : String}
    (h : ∀ other ∈ keys xs, f other = f key → other = key) :
    get? (xs.map fun p => (f p.1, p.2)) (f key) = get? xs key := by
  induction xs with
  | nil => rfl
  | cons p rest ih =>
    obtain ⟨k, v⟩ := p
    obtain ⟨hk, hrest⟩ := List.forall_mem_cons.1 h
    rw [List.map_cons, get?, get?, ih hrest]
    by_cases hkey : k = key
    · rw [if_pos hkey, if_pos (congrArg f hkey)]
    · rw [if_neg hkey, if_neg fun hsame => hkey (hk hsame)]

/-- Entries that are kept by their names. -/
theorem get?_filter (keeps : String → Bool) (xs : Fields α) (key : String) :
    get? (xs.filter fun p => keeps p.1) key = if keeps key then get? xs key else none := by
  induction xs with
  | nil => cases keeps key <;> rfl
  | cons p rest ih =>
    obtain ⟨k, v⟩ := p
    rw [List.filter_cons]
    by_cases hk : k = key
    · subst hk
      cases hkeeps : keeps k with
      | true => simp [get?]
      | false => simpa [hkeeps] using ih
    · cases hkeeps : keeps k with
      | true => simp only [if_true, get?, if_neg hk, ih]
      | false => simp only [Bool.false_eq_true, if_false, ih, get?, if_neg hk]

/-! ## Insertion -/

theorem contains_insert_self (xs : Fields α) (key : String) (v : α) :
    contains (insert xs key v) key = true := by
  rw [contains, get?_insert_self, Option.isSome_some]

theorem insert_of_get? {xs : Fields α} {key : String} {v : α} (h : get? xs key = some v) :
    insert xs key v = xs := by
  induction xs with
  | nil => cases h
  | cons p rest ih =>
    obtain ⟨k, w⟩ := p
    rw [get?] at h
    rw [insert]
    split at h
    · next hk =>
      cases h
      rw [if_pos hk, hk]
    · next hk => rw [if_neg hk, ih h]

/-- A value goes in the place of the one that has its key. -/
theorem insert_in_place {xs : Fields α} {key : String} {w : α} (h : get? xs key = some w) (v : α) :
    ∃ front back, xs = front ++ (key, w) :: back ∧ insert xs key v = front ++ (key, v) :: back := by
  induction xs with
  | nil => cases h
  | cons p rest ih =>
    obtain ⟨k, u⟩ := p
    by_cases hk : k = key
    · subst hk
      rw [get?, if_pos rfl, Option.some.injEq] at h
      subst h
      exact ⟨[], rest, rfl, by simp [insert]⟩
    · rw [get?, if_neg hk] at h
      obtain ⟨front, back, rfl, hinsert⟩ := ih h
      exact ⟨(k, u) :: front, back, rfl, by simp [insert, hk, hinsert]⟩

/-- A value with a new key goes to the end. -/
theorem insert_at_end {xs : Fields α} {key : String} (h : get? xs key = none) (v : α) :
    insert xs key v = xs ++ [(key, v)] := by
  induction xs with
  | nil => rfl
  | cons p rest ih =>
    obtain ⟨k, u⟩ := p
    rw [get?] at h
    split at h
    · cases h
    · next hk => simp [insert, hk, ih h]

/-- Of two values that are inserted under one key, the later one stays. -/
theorem insert_insert_self (xs : Fields α) (key : String) (v w : α) :
    insert (insert xs key v) key w = insert xs key w := by
  induction xs with
  | nil => simp [insert]
  | cons p rest ih =>
    obtain ⟨k, u⟩ := p
    by_cases hk : k = key
    · simp [insert, hk]
    · simp [insert, hk, ih]

theorem insert_map (f : α → β) (xs : Fields α) (key : String) (v : α) :
    insert (xs.map fun p => (p.1, f p.2)) key (f v) = (insert xs key v).map fun p => (p.1, f p.2) := by
  induction xs with
  | nil => rfl
  | cons p rest ih =>
    simp only [List.map_cons, insert]
    split
    · rfl
    · rw [ih, List.map_cons]

theorem mem_insert {xs : Fields α} {key : String} {v : α} {p : String × α} (h : p ∈ insert xs key v) :
    p = (key, v) ∨ p ∈ xs := by
  induction xs with
  | nil => simpa [insert] using h
  | cons q rest ih =>
    obtain ⟨k, w⟩ := q
    rw [insert] at h
    split at h
    · rcases List.mem_cons.1 h with rfl | h
      · exact .inl rfl
      · exact .inr (List.mem_cons_of_mem _ h)
    · rcases List.mem_cons.1 h with rfl | h
      · exact .inr List.mem_cons_self
      · exact (ih h).imp_right (List.mem_cons_of_mem _)

theorem nodup_keys_insert {xs : Fields α} (h : (keys xs).Nodup) (key : String) (v : α) :
    (keys (insert xs key v)).Nodup := by
  by_cases hmem : key ∈ keys xs
  · rwa [keys_insert_of_mem v hmem]
  · rw [keys_insert_of_not_mem v hmem]
    exact List.nodup_append.2 ⟨h, List.nodup_singleton _, fun a ha b hb => by
      rw [List.mem_singleton.1 hb]
      rintro rfl
      exact hmem ha⟩

/-- With each key once, lists that give every key the same value differ in order only. -/
theorem perm_of_get? {xs ys : Fields α} (hx : (keys xs).Nodup) (hy : (keys ys).Nodup)
    (h : ∀ key, get? xs key = get? ys key) : xs.Perm ys := by
  refine (List.perm_ext_iff_of_nodup hx.of_map hy.of_map).2 fun p => ?_
  constructor
  · intro hp
    exact mem_of_get? ((h p.1).symm.trans (get?_of_mem hx hp))
  · intro hp
    exact mem_of_get? ((h p.1).trans (get?_of_mem hy hp))

/-! ## Lists made of pairs -/

theorem nodup_keys_foldl_insert (pairs : List (String × α)) {xs : Fields α} (h : (keys xs).Nodup) :
    (keys (pairs.foldl (fun xs p => insert xs p.1 p.2) xs)).Nodup := by
  induction pairs generalizing xs with
  | nil => exact h
  | cons p pairs ih => exact ih (nodup_keys_insert h p.1 p.2)

theorem nodup_keys_ofPairs (pairs : List (String × α)) : (keys (ofPairs pairs)).Nodup :=
  nodup_keys_foldl_insert pairs List.nodup_nil

theorem ofPairs_concat (pairs : List (String × α)) (p : String × α) :
    ofPairs (pairs ++ [p]) = (ofPairs pairs).insert p.1 p.2 := by
  rw [ofPairs, List.foldl_append]
  rfl

theorem ofPairs_map (f : α → β) (pairs : List (String × α)) :
    ofPairs (pairs.map fun p => (p.1, f p.2)) = (ofPairs pairs).map fun p => (p.1, f p.2) := by
  induction pairs using List.reverseRecOn with
  | nil => rfl
  | append_singleton pairs p ih =>
    rw [List.map_append, List.map_singleton, ofPairs_concat, ih, insert_map, ofPairs_concat]

/-- Of pairs with one key, the last counts. -/
theorem get?_ofPairs (pairs : List (String × α)) (key : String) :
    get? (ofPairs pairs) key = get? pairs.reverse key := by
  induction pairs using List.reverseRecOn with
  | nil => rfl
  | append_singleton pairs p ih =>
    rw [ofPairs_concat, List.reverse_concat, get?]
    by_cases hkey : p.1 = key
    · subst hkey
      rw [if_pos rfl, get?_insert_self]
    · rw [if_neg hkey, get?_insert_of_ne _ _ (Ne.symm hkey), ih]

theorem mem_of_mem_ofPairs {pairs : List (String × α)} {p : String × α} (h : p ∈ ofPairs pairs) : p ∈ pairs := by
  have hget := get?_of_mem (nodup_keys_ofPairs pairs) h
  rw [get?_ofPairs] at hget
  exact List.mem_reverse.1 (mem_of_get? hget)

/-- No pair behind the last one with its key changes its value. -/
theorem get?_ofPairs_of_last (before : List (String × α)) {key : String} (v : α) {after : List (String × α)}
    (h : ∀ p ∈ after, p.1 ≠ key) : get? (ofPairs (before ++ (key, v) :: after)) key = some v := by
  induction after using List.reverseRecOn with
  | nil => rw [ofPairs_concat, get?_insert_self]
  | append_singleton after p ih =>
    have hp : p.1 ≠ key := h p (List.mem_append_right after (List.mem_singleton_self p))
    rw [← List.cons_append, ← List.append_assoc, ofPairs_concat, get?_insert_of_ne _ _ hp.symm]
    exact ih fun q hq => h q (List.mem_append_left [p] hq)

/-- A list with each key once is made of its own entries. -/
theorem ofPairs_of_nodup {pairs : List (String × α)} (h : (keys pairs).Nodup) : ofPairs pairs = pairs := by
  induction pairs using List.reverseRecOn with
  | nil => rfl
  | append_singleton pairs p ih =>
    rw [keys, List.map_append, List.nodup_append] at h
    obtain ⟨hpairs, -, hnew⟩ := h
    rw [ofPairs_concat, ih hpairs]
    refine insert_at_end (get?_eq_none_iff.2 fun hmem => ?_) p.2
    exact hnew p.1 hmem p.1 (List.mem_singleton_self _) rfl

theorem mem_keys_ofPairs_iff {pairs : List (String × α)} {key : String} :
    key ∈ keys (ofPairs pairs) ↔ key ∈ pairs.map Prod.fst := by
  rw [← not_iff_not, ← get?_eq_none_iff, get?_ofPairs, get?_eq_none_iff, keys, List.map_reverse,
    List.mem_reverse]

theorem length_ofPairs (pairs : List (String × α)) :
    (ofPairs pairs).length = (pairs.map Prod.fst).dedup.length := by
  have hperm : (keys (ofPairs pairs)).Perm (pairs.map Prod.fst).dedup := by
    refine (List.perm_ext_iff_of_nodup (nodup_keys_ofPairs pairs) (List.nodup_dedup _)).2 fun key => ?_
    rw [mem_keys_ofPairs_iff, List.mem_dedup]
  rw [← hperm.length_eq, keys, List.length_map]

/-- A list made of pairs is as long as the pairs are iff they have each key once. -/
theorem length_ofPairs_eq_iff {pairs : List (String × α)} :
    (ofPairs pairs).length = pairs.length ↔ (pairs.map Prod.fst).Nodup := by
  rw [length_ofPairs, ← List.dedup_eq_self, ← (List.dedup_sublist (pairs.map Prod.fst)).length_eq,
    List.length_map]

/-! ## Agreement -/

/-- As many entries, and under each key of the first list related values. -/
def Agree (R : α → β → Prop) (xs : Fields α) (ys : Fields β) : Prop :=
  xs.length = ys.length ∧ ∀ p ∈ xs, ∃ v, get? ys p.1 = some v ∧ R p.2 v

theorem Agree.mono {R S : α → β → Prop} {xs : Fields α} {ys : Fields β} (h : Agree R xs ys)
    (hS : ∀ p ∈ xs, ∀ q ∈ ys, R p.2 q.2 → S p.2 q.2) : Agree S xs ys := by
  refine ⟨h.1, fun p hp => ?_⟩
  obtain ⟨v, hv, hR⟩ := h.2 p hp
  exact ⟨v, hv, hS p hp (p.1, v) (mem_of_get? hv) hR⟩

theorem Agree.trans {γ : Type} {R : α → β → Prop} {S : β → γ → Prop} {T : α → γ → Prop} {xs : Fields α}
    {ys : Fields β} {zs : Fields γ} (hxy : Agree R xs ys) (hyz : Agree S ys zs)
    (hT : ∀ p ∈ xs, ∀ v w, R p.2 v → S v w → T p.2 w) : Agree T xs zs := by
  refine ⟨hxy.1.trans hyz.1, fun p hp => ?_⟩
  obtain ⟨v, hv, hR⟩ := hxy.2 p hp
  obtain ⟨w, hw, hS⟩ := hyz.2 (p.1, v) (mem_of_get? hv)
  exact ⟨w, hw, hT p hp v w hR hS⟩

/-- The list that agrees with one of different keys has these keys, and each of them once. -/
theorem Agree.same_keys {R : α → β → Prop} {xs : Fields α} {ys : Fields β} (h : Agree R xs ys)
    (hx : (keys xs).Nodup) : keys ys ⊆ keys xs ∧ (keys ys).Nodup := by
  have hsub : (keys xs).toFinset ⊆ (keys ys).toFinset := by
    intro key hkey
    obtain ⟨p, hp, rfl⟩ := List.mem_map.1 (List.mem_toFinset.1 hkey)
    obtain ⟨v, hv, -⟩ := h.2 p hp
    exact List.mem_toFinset.2 (mem_keys_of_get? hv)
  have hlength : (keys ys).length = (keys xs).toFinset.card := by
    rw [List.toFinset_card_of_nodup hx]
    simp only [keys, List.length_map, h.1]
  have hcard : (keys ys).toFinset.card ≤ (keys xs).toFinset.card := hlength ▸ List.toFinset_card_le _
  have heq : (keys xs).toFinset = (keys ys).toFinset := Finset.eq_of_subset_of_card_le hsub hcard
  refine ⟨fun key hkey => ?_, ?_⟩
  · rw [← List.mem_toFinset, heq]
    exact List.mem_toFinset.2 hkey
  · rw [heq, List.card_toFinset] at hlength
    rw [← List.dedup_eq_self, (List.dedup_sublist (keys ys)).eq_of_length hlength.symm]

theorem Agree.symm {R : α → β → Prop} {S : β → α → Prop} {xs : Fields α} {ys : Fields β} (h : Agree R xs ys)
    (hx : (keys xs).Nodup) (hS : ∀ p ∈ xs, ∀ q ∈ ys, R p.2 q.2 → S q.2 p.2) : Agree S ys xs := by
  obtain ⟨hkeys, hy⟩ := h.same_keys hx
  refine ⟨h.1.symm, fun q hq => ?_⟩
  obtain ⟨p, hp, hkey⟩ := List.mem_map.1 (hkeys (List.mem_map_of_mem hq))
  obtain ⟨v, hv, hR⟩ := h.2 p hp
  have hq' : get? ys p.1 = some q.2 := hkey ▸ get?_of_mem hy hq
  cases hv.symm.trans hq'
  exact ⟨p.2, hkey ▸ get?_of_mem hx hp, hS p hp q hq hR⟩

end Docbase.Fields
