/-
What lowering leaves behind. A run of code points can be told apart from a whole set of runs without going
through its points (`CharRange.isApartFrom`), so it is checked run by run that no character that has a lower-case
form of its own is lowered to an upper-case one or to an underscore. The rest stay as they are, whether they
are upper-case or not, as `𝐀` does: `lowerChar_cases`.
-/
import Docbase.Text.LowerCase
import Docbase.Text.Uppercase

namespace Docbase.Text

variable {c : Char} {n : Nat}

namespace CharRange

variable {r s : CharRange} {rs : List CharRange}

/-- Whether the points of a run are all even or all odd. -/
def isEverySecond (r : CharRange) : Bool := r.step = 2 || r.first = r.last

/-- Whether two runs have no point in common because one ends before the other starts, or because the points of the
one are even and those of the other are odd. -/
def isApart (r s : CharRange) : Bool :=
  r.last < s.first || s.last < r.first ||
    (r.isEverySecond && s.isEverySecond && (r.first + s.first) % 2 = 1)

/-- Whether a run is apart from all of a set of runs in ascending order, up to the first that starts behind it. -/
def isApartFrom (r : CharRange) : List CharRange → Bool
  | [] => true
  | s :: rest => if r.last < s.first then true else r.isApart s && isApartFrom r rest

/-- Whether a code point lies in a run. -/
def Covers (r : CharRange) (n : Nat) : Prop := r.first ≤ n ∧ n ≤ r.last ∧ (n - r.first) % r.step = 0

theorem contains_iff : r.contains c = true ↔ r.Covers c.toNat := by
  simp [contains, Covers, and_assoc]

theorem Covers.mod_two (h : r.Covers n) (hr : r.isEverySecond = true) : n % 2 = r.first % 2 := by
  obtain ⟨hfirst, hlast, hstep⟩ := h
  simp only [isEverySecond, Bool.or_eq_true, decide_eq_true_eq] at hr
  rcases hr with hr | hr
  · rw [hr] at hstep
    omega
  · rw [show n = r.first by omega]

theorem Covers.not_of_isApart (h : r.Covers n) (hrs : r.isApart s = true) : ¬s.Covers n := by
  intro hs
  simp only [isApart, Bool.or_eq_true, Bool.and_eq_true, decide_eq_true_eq] at hrs
  rcases hrs with (hbefore | hbehind) | ⟨⟨hr, hs'⟩, hodd⟩
  · have := h.2.1
    have := hs.1
    omega
  · have := h.1
    have := hs.2.1
    omega
  · have := h.mod_two hr
    have := hs.mod_two hs'
    omega

theorem Covers.anyContains_eq_false (h : r.Covers c.toNat) (hrs : r.isApartFrom rs = true) :
    anyContains rs c = false := by
  induction rs with
  | nil => rfl
  | cons s rest ih =>
    rw [anyContains]
    split
    · rfl
    · next hstart =>
      rw [isApartFrom, if_neg (fun hlast => hstart (Nat.lt_of_le_of_lt h.2.1 hlast)), Bool.and_eq_true] at hrs
      have hs : s.contains c = false := Bool.eq_false_iff.2 fun hs => h.not_of_isApart hrs.1 (contains_iff.1 hs)
      rw [hs, Bool.false_or, ih hrs.2]

end CharRange

namespace CaseShift

variable {s : CaseShift}

/-- The run that the characters of a shift are lowered to. -/
def image (s : CaseShift) : CharRange :=
  ⟨((s.range.first : Int) + s.shift).toNat, ((s.range.last : Int) + s.shift).toNat, s.range.step⟩

theorem covers_image (hs : 0 ≤ (s.range.first : Int) + s.shift) (h : s.range.Covers n) :
    s.image.Covers ((n : Int) + s.shift).toNat := by
  obtain ⟨hfirst, hlast, hstep⟩ := h
  have hmoved : ((n : Int) + s.shift).toNat - ((s.range.first : Int) + s.shift).toNat = n - s.range.first := by omega
  refine ⟨?_, ?_, ?_⟩
  · simp only [image]
    omega
  · simp only [image]
    omega
  · simp only [image]
    rw [hmoved, hstep]

end CaseShift

/-- No run of characters is lowered to one that holds an upper-case character or the underscore. -/
theorem images_apart : (lowerShifts.all fun s => decide (0 ≤ (s.range.first : Int) + s.shift) &&
    s.image.isApart ⟨'_'.toNat, '_'.toNat, 1⟩ && s.image.isApartFrom uppercaseRanges) = true := by decide +kernel

theorem shiftOf_cases (shifts : List CaseShift) (c : Char) : shiftOf shifts c = 0 ∨
    ∃ s ∈ shifts, s.range.contains c = true ∧ shiftOf shifts c = s.shift := by
  induction shifts with
  | nil => exact .inl rfl
  | cons s rest ih =>
    rw [shiftOf]
    split
    · exact .inl rfl
    · split
      · next hs => exact .inr ⟨s, List.mem_cons_self, hs, rfl⟩
      · exact ih.imp_right fun ⟨t, ht, h⟩ => ⟨t, List.mem_cons_of_mem _ ht, h⟩

theorem toNat_ofNat_or (n : Nat) : (Char.ofNat n).toNat = n ∨ Char.ofNat n = '\x00' := by
  by_cases hn : n.isValidChar
  · exact .inl (by rw [Char.ofNat, dif_pos hn]; rfl)
  · exact .inr (dif_neg hn)

/-- **Lowering a character leaves it as it is, or gives one that is not upper-case and not an underscore.** -/
theorem lowerChar_cases (c : Char) :
    lowerChar c = c ∨ isUppercase (lowerChar c) = false ∧ lowerChar c ≠ '_' := by
  by_cases hdotted : c = 'İ'
  · rw [lowerChar, if_pos hdotted]
    exact .inr (by decide)
  · rw [lowerChar, if_neg hdotted]
    rcases shiftOf_cases lowerShifts c with hshift | ⟨s, hs, hc, hshift⟩
    · rw [hshift]
      exact .inl (by rw [Int.add_zero, Int.toNat_natCast, Char.ofNat_toNat])
    · rw [hshift]
      right
      have hapart := List.all_eq_true.1 images_apart s hs
      simp only [Bool.and_eq_true, decide_eq_true_eq] at hapart
      obtain ⟨⟨hpos, hunderscore⟩, hupper⟩ := hapart
      have hcovers := CaseShift.covers_image hpos (CharRange.contains_iff.1 hc)
      generalize ((c.toNat : Int) + s.shift).toNat = n at hcovers ⊢
      rcases toNat_ofNat_or n with hn | hzero
      · rw [← hn] at hcovers
        refine ⟨hcovers.anyContains_eq_false hupper, fun heq => ?_⟩
        rw [heq] at hcovers
        exact hcovers.not_of_isApart hunderscore ⟨Nat.le_refl _, Nat.le_refl _, Nat.mod_one _⟩
      · rw [hzero]
        decide

end Docbase.Text
