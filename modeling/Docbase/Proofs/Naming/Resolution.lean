/-
Resolving a name twice. Camel case can enter its loop again on a name that it has resolved, since an upper-case
character without a lower-case form stays upper-case. It lowers nothing then: a character is lowered to one that is
not upper-case, or is its own lower-case form (`lowerRun_lowerRun`). No name but `_id` is resolved to `_id`, so that
the name that `_id` is shown as never stands for it (`fieldName_ne_idField`), and resolution as a whole is idempotent
(`fieldName_fieldName`).
-/
import Docbase.Naming
import Docbase.Proofs.Text.LowerCase

namespace Docbase.NamingStrategy

open Text

variable {c : Char} {cs rest : List Char}

/-! ## Runs of upper-case characters -/

theorem lowerChar_lowerChar (h : isUppercase (lowerChar c) = true) : lowerChar (lowerChar c) = lowerChar c := by
  rcases lowerChar_cases c with hsame | ⟨hlower, -⟩
  · rw [hsame, hsame]
  · rw [hlower] at h
    cases h

theorem lowerRun_of_not_isUppercase (hc : isUppercase c = false) (cs : List Char) :
    lowerRun (c :: cs) = c :: cs := by
  cases cs <;> simp [lowerRun, hc]

/-- A run that stays also stays behind a character that does. -/
theorem lowerRun_cons_of_settled (hc : isUppercase c = true → lowerChar c = c) (hcs : lowerRun cs = cs) :
    lowerRun (c :: cs) = c :: cs := by
  cases cs with
  | nil =>
    rw [lowerRun]
    split
    · next hupper => rw [hc hupper]
    · rfl
  | cons next rest =>
    rw [lowerRun]
    split
    · next hupper =>
      rw [hc hupper, hcs]
      simp only [ite_self]
    · rfl

theorem lowerRun_lowerRun (cs : List Char) : lowerRun (lowerRun cs) = lowerRun cs := by
  induction cs using lowerRun.induct with
  | case1 => rfl
  | case2 c hc =>
    rw [lowerRun, if_pos hc]
    exact lowerRun_cons_of_settled lowerChar_lowerChar rfl
  | case4 c next rest hc hnext ih =>
    rw [lowerRun, if_pos hc, if_pos hnext]
    exact lowerRun_cons_of_settled lowerChar_lowerChar ih
  | case5 c next rest hc hnext hblank =>
    rw [lowerRun, if_pos hc, if_neg hnext, if_pos hblank]
    exact lowerRun_cons_of_settled lowerChar_lowerChar
      (lowerRun_of_not_isUppercase (Bool.eq_false_iff.2 hnext) rest)
  | case3 c hc | case6 c next rest hc hnext hblank | case7 c next rest hc => simp [lowerRun, *]

theorem camelChars_camelChars (cs : List Char) : camelChars (camelChars cs) = camelChars cs := by
  cases cs with
  | nil => rfl
  | cons c rest =>
    rw [camelChars]
    split
    · rw [camelChars]
      split
      · next hupper => rw [lowerChar_lowerChar hupper, lowerRun_lowerRun]
      · rfl
    · next hc => rw [camelChars, if_neg hc]

/-- Camel case only makes an underscore the first character of a name that starts with one. -/
theorem camelChars_eq_self_of_underscore (h : camelChars cs = '_' :: rest) : camelChars cs = cs := by
  cases cs with
  | nil => rfl
  | cons c cs =>
    rw [camelChars] at h ⊢
    split
    · next hc =>
      rw [if_pos hc] at h
      have hhead : lowerChar c = '_' := (List.cons.inj h).1
      rcases lowerChar_cases c with hsame | ⟨-, hne⟩
      · rw [← hsame, hhead] at hc
        exact absurd hc (by decide)
      · exact absurd hhead hne
    · rfl

/-! ## Names -/

variable {name : String}

theorem resolve_resolve (s : NamingStrategy) (name : String) : s.resolve (s.resolve name) = s.resolve name := by
  cases s with
  | verbatim => rfl
  | camelCase => rw [resolve, resolve, String.toList_ofList, camelChars_camelChars]

theorem resolve_ne_idField (s : NamingStrategy) (h : name ≠ idField) : s.resolve name ≠ idField := by
  cases s with
  | verbatim => exact h
  | camelCase =>
    intro heq
    have hchars : camelChars name.toList = ['_', 'i', 'd'] := by
      rw [resolve] at heq
      rw [← String.toList_ofList (l := camelChars name.toList), heq]
      decide
    rw [camelChars_eq_self_of_underscore hchars] at hchars
    exact h (String.toList_inj.1 (hchars.trans (by decide)))

theorem fieldName_ne_idField (s : NamingStrategy) (name : String) : s.fieldName name ≠ idField := by
  rw [fieldName]
  split
  · exact s.resolve_ne_idField (by decide)
  · next hname => exact s.resolve_ne_idField hname

theorem fieldName_eq_self {s : NamingStrategy} (hkept : s.resolve name = name) (hname : name ≠ idField) :
    s.fieldName name = name := by
  rwa [fieldName, if_neg hname]

theorem fieldName_fieldName (s : NamingStrategy) (name : String) :
    s.fieldName (s.fieldName name) = s.fieldName name := by
  refine fieldName_eq_self ?_ (s.fieldName_ne_idField name)
  exact s.resolve_resolve _

end Docbase.NamingStrategy
