/-
Ordered association lists: values under names, each name once as long as only
`insert` fills the list. Inserting under a name that is present keeps the place
of the name and changes its value, and a new name goes to the end.
-/

namespace Docbase

abbrev Fields (α : Type) := List (String × α)

namespace Fields

variable {α : Type}

def keys (xs : Fields α) : List String := xs.map Prod.fst

/-- The value under a name; of repeated names the first counts. -/
def get? : Fields α → String → Option α
  | [], _ => none
  | (k, v) :: rest, key => if k = key then some v else get? rest key

def contains (xs : Fields α) (key : String) : Bool := (get? xs key).isSome

def insert : Fields α → String → α → Fields α
  | [], key, value => [(key, value)]
  | (k, v) :: rest, key, value =>
    if k = key then (key, value) :: rest else (k, v) :: insert rest key value

def erase (xs : Fields α) (key : String) : Fields α := xs.filter fun p => p.1 ≠ key

/-- The list that results from inserting pairs in order. -/
def ofPairs (pairs : List (String × α)) : Fields α :=
  pairs.foldl (fun xs p => insert xs p.1 p.2) []

theorem get?_insert_self (xs : Fields α) (key : String) (v : α) :
    get? (insert xs key v) key = some v := by
  induction xs with
  | nil => simp [insert, get?]
  | cons p rest ih =>
    obtain ⟨k, w⟩ := p
    by_cases h : k = key
    · simp [insert, get?, h]
    · simp [insert, get?, h, ih]

theorem get?_insert_of_ne (xs : Fields α) {key other : String} (v : α) (hne : other ≠ key) :
    get? (insert xs key v) other = get? xs other := by
  induction xs with
  | nil => simp [insert, get?, Ne.symm hne]
  | cons p rest ih =>
    obtain ⟨k, w⟩ := p
    by_cases h : k = key
    · subst h; simp [insert, get?, Ne.symm hne]
    · simp [insert, get?, h, ih]

theorem get?_erase_self (xs : Fields α) (key : String) : get? (erase xs key) key = none := by
  induction xs with
  | nil => rfl
  | cons p rest ih =>
    obtain ⟨k, w⟩ := p
    by_cases h : k = key
    · simpa [erase, h] using ih
    · simpa [erase, get?, h] using ih

theorem get?_erase_of_ne (xs : Fields α) {key other : String} (hne : other ≠ key) :
    get? (erase xs key) other = get? xs other := by
  induction xs with
  | nil => rfl
  | cons p rest ih =>
    obtain ⟨k, w⟩ := p
    by_cases ho : k = other
    · simp [erase, get?, ho, hne]
    · by_cases h : k = key
      · simpa [erase, get?, h, Ne.symm hne] using ih
      · simpa [erase, get?, h, ho] using ih

theorem keys_insert_of_mem {xs : Fields α} {key : String} (v : α) (h : key ∈ keys xs) :
    keys (insert xs key v) = keys xs := by
  induction xs with
  | nil => simp [keys] at h
  | cons p rest ih =>
    obtain ⟨k, w⟩ := p
    by_cases hk : k = key
    · simp [insert, keys, hk]
    · have hrest : key ∈ keys rest := by simpa [keys, Ne.symm hk] using h
      have := ih hrest
      simp only [keys] at this
      simp [insert, keys, hk, this]

theorem keys_insert_of_not_mem {xs : Fields α} {key : String} (v : α) (h : key ∉ keys xs) :
    keys (insert xs key v) = keys xs ++ [key] := by
  induction xs with
  | nil => rfl
  | cons p rest ih =>
    obtain ⟨k, w⟩ := p
    have hk : k ≠ key := fun e => h (by simp [keys, e])
    have hrest : key ∉ keys rest := fun hm => h (by simp only [keys] at hm; simp [keys, hm])
    have := ih hrest
    simp only [keys] at this
    simp [insert, keys, hk, this]

end Fields
end Docbase
