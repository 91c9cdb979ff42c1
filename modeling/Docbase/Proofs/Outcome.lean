/-
Outcomes that are a value or a fault, taken apart: what a chain of steps or a
mapped outcome is, given what its first step is, and a list of steps.
-/
import Docbase.Error
import Mathlib.Data.List.Forall2

namespace Docbase

variable {ε α β : Type}

@[simp] theorem ok_bind (a : α) (f : α → Except ε β) : (Except.ok a >>= f) = f a := rfl

@[simp] theorem error_bind (e : ε) (f : α → Except ε β) : (Except.error e >>= f) = .error e := rfl

theorem bind_eq_ok_iff {x : Except ε α} {f : α → Except ε β} {b : β} :
    x >>= f = .ok b ↔ ∃ a, x = .ok a ∧ f a = .ok b := by
  cases x with
  | error e => simp
  | ok a => simp

@[simp] theorem ok_map (a : α) (f : α → β) : (Except.ok a : Except ε α).map f = .ok (f a) := rfl

@[simp] theorem error_map (e : ε) (f : α → β) : (Except.error e).map f = .error e := rfl

theorem map_eq_ok_iff {x : Except ε α} {f : α → β} {b : β} :
    x.map f = .ok b ↔ ∃ a, x = .ok a ∧ f a = b := by
  cases x with
  | error e => simp
  | ok a => simp

/-- A list of steps has an outcome iff every one of them has its own. -/
theorem mapM_eq_ok_iff {f : α → Except ε β} {as : List α} {bs : List β} :
    as.mapM f = .ok bs ↔ List.Forall₂ (fun a b => f a = .ok b) as bs := by
  induction as generalizing bs with
  | nil =>
    rw [List.forall₂_nil_left_iff, List.mapM_nil]
    constructor
    · intro h; cases h; rfl
    · rintro rfl; rfl
  | cons a as ih =>
    rw [List.forall₂_cons_left_iff, List.mapM_cons]
    simp only [bind_eq_ok_iff, ih]
    constructor
    · rintro ⟨b, hb, rest, hrest, h⟩
      cases h
      exact ⟨b, rest, hb, hrest, rfl⟩
    · rintro ⟨b, rest, hb, hrest, rfl⟩
      exact ⟨b, hb, rest, hrest, rfl⟩

/-- A list of steps fails with the error of one of them, or all of them have an outcome. -/
theorem mapM_cases (f : α → Except ε β) (as : List α) :
    (∃ e, as.mapM f = .error e ∧ ∃ a ∈ as, f a = .error e) ∨
      ∃ bs, as.mapM f = .ok bs ∧ ∀ a ∈ as, ∃ b, f a = .ok b := by
  induction as with
  | nil => exact .inr ⟨[], rfl, by simp⟩
  | cons a as ih =>
    rw [List.mapM_cons]
    cases ha : f a with
    | error e => exact .inl ⟨e, rfl, a, List.mem_cons_self, ha⟩
    | ok b =>
      rw [ok_bind]
      rcases ih with ⟨e, herror, a', hmem, ha'⟩ | ⟨bs, hok, hall⟩
      · rw [herror]
        exact .inl ⟨e, rfl, a', List.mem_cons_of_mem _ hmem, ha'⟩
      · rw [hok]
        exact .inr ⟨b :: bs, rfl, List.forall_mem_cons.2 ⟨⟨b, ha⟩, hall⟩⟩

end Docbase
