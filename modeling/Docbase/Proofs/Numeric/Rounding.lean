/-
A finite double is its own rounding. Its size is `significand * 2 ^ exponent`, and a quotient of
exactly this size is rounded to the double itself (`Double.ofRatio_of_exact`). So the shortest decimal
of a double reads back as it (`Decimal.toDouble_shortest`): each decimal that is tried was read back
before it is taken, and the one that is taken if none serves has all the digits.

Sizes are compared as rational numbers; there a shift is a power of two (`reaches_iff`).
-/
import Docbase.Numeric.Decimal
import Docbase.Proofs.Numeric.Double
import Mathlib.Algebra.Order.Field.Power
import Mathlib.Data.Rat.Cast.Order
import Mathlib.Tactic.GCongr
import Mathlib.Tactic.Positivity
import Mathlib.Tactic.Ring

namespace Docbase

namespace Double

/-! ## The size of a double -/

/-- The significand and the exponent of a double make up its magnitude. -/
theorem magnitude_eq (x : Double) :
    (x.exponent + 1074).toNat * exponentBit + x.significand = x.magnitude := by
  unfold exponent significand
  split <;> simp only [exponentBit] at * <;> omega

theorem exponent_ge (x : Double) : -1074 ≤ x.exponent := by
  unfold exponent
  split <;> simp only [exponentBit] at * <;> omega

theorem significand_lt (x : Double) : x.significand < 2 ^ 53 := by
  unfold significand
  split <;> simp only [exponentBit] at * <;> omega

/-- Below `2 ^ 52` a significand counts in the smallest unit. -/
theorem significand_norm (x : Double) : 2 ^ 52 ≤ x.significand ∨ x.exponent = -1074 := by
  unfold significand exponent
  split
  · exact .inr rfl
  · simp only [exponentBit]
    omega

theorem significand_pos {x : Double} (h : x.magnitude ≠ 0) : 0 < x.significand := by
  unfold significand
  split
  · exact Nat.pos_of_ne_zero h
  · simp only [exponentBit]
    omega

theorem ofMagnitude_magnitude {x : Double} (h : x.isNegative = false) : ofMagnitude false x.magnitude = x := by
  obtain ⟨bits⟩ := x
  simp only [isNegative, decide_eq_false_iff_not, Nat.not_le] at h
  simp only [ofMagnitude, magnitude, Nat.mod_eq_of_lt h, Bool.false_eq_true, if_false, Nat.add_zero,
    UInt64.ofNat_toNat]

theorem isNegative_ofMagnitude {negative : Bool} {m : Nat} (h : m ≤ infinityMagnitude) :
    (ofMagnitude negative m).isNegative = negative := by
  simp only [infinityMagnitude, exponentBit] at h
  simp only [isNegative, ofMagnitude, signBit, UInt64.toNat_ofNat']
  cases negative
  · simp only [Bool.false_eq_true, if_false, decide_eq_false_iff_not]
    omega
  · simp only [if_true, decide_eq_true_eq]
    omega

/-! ## The exponent of a quotient -/

/-- Whether a quotient is at least a power of two. -/
def Reaches (num den : Nat) (e : Int) : Prop := den <<< e.toNat ≤ num <<< (-e).toNat

theorem natCast_shiftLeft (n k : Nat) : ((n <<< k : Nat) : ℚ) = n * ((1 <<< k : Nat) : ℚ) := by
  simp [Nat.shiftLeft_eq]

theorem one_shiftLeft_pos (k : Nat) : (0 : ℚ) < ((1 <<< k : Nat) : ℚ) := by
  rw [Nat.shiftLeft_eq]
  positivity

theorem shift_eq (n : Nat) (e : Int) :
    ((n <<< e.toNat : Nat) : ℚ) = (n : ℚ) * (2 : ℚ) ^ e * ((1 <<< (-e).toNat : Nat) : ℚ) := by
  rcases Int.le_total 0 e with h | h
  · obtain ⟨k, rfl⟩ := Int.eq_ofNat_of_zero_le h
    have : (-(k : Int)).toNat = 0 := by omega
    simp [Nat.shiftLeft_eq, this]
  · obtain ⟨k, hk⟩ := Int.eq_ofNat_of_zero_le (Int.neg_nonneg_of_nonpos h)
    obtain rfl : e = -(k : Int) := by omega
    simp [Nat.shiftLeft_eq]

theorem reaches_iff {num den : Nat} {e : Int} : Reaches num den e ↔ (den : ℚ) * 2 ^ e ≤ num := by
  rw [Reaches, ← Nat.cast_le (α := ℚ), shift_eq, natCast_shiftLeft num,
    mul_le_mul_iff_of_pos_right (one_shiftLeft_pos _)]

theorem two_pow_log2_le {n : Nat} (h : 0 < n) : (2 : ℚ) ^ (n.log2 : Int) ≤ n := by
  have := Nat.log2_self_le (Nat.ne_of_gt h)
  rw [zpow_natCast]
  exact_mod_cast this

theorem lt_two_pow_log2 (n : Nat) : (n : ℚ) < 2 ^ ((n.log2 : Int) + 1) := by
  have : n < 2 ^ (n.log2 + 1) := Nat.lt_log2_self
  exact_mod_cast this

theorem binaryExponent_spec {num den : Nat} (hn : 0 < num) (hd : 0 < den) :
    Reaches num den (binaryExponent num den) ∧ ¬Reaches num den (binaryExponent num den + 1) := by
  have hnlow := two_pow_log2_le hn
  have hnhigh := lt_two_pow_log2 num
  have hdlow := two_pow_log2_le hd
  have hdhigh := lt_two_pow_log2 den
  unfold binaryExponent
  dsimp only
  generalize hg : (num.log2 : Int) - den.log2 = guess
  split
  · next htest =>
    refine ⟨htest, ?_⟩
    rw [reaches_iff, not_le]
    calc (num : ℚ) < 2 ^ ((num.log2 : Int) + 1) := hnhigh
      _ = 2 ^ (den.log2 : Int) * 2 ^ (guess + 1) := by
        rw [← zpow_add₀ two_ne_zero]
        congr 1
        omega
      _ ≤ den * 2 ^ (guess + 1) := by gcongr
  · next htest =>
    refine ⟨?_, by rwa [Int.sub_add_cancel]⟩
    rw [reaches_iff]
    calc (den : ℚ) * 2 ^ (guess - 1) ≤ 2 ^ ((den.log2 : Int) + 1) * 2 ^ (guess - 1) := by gcongr
      _ = 2 ^ (num.log2 : Int) := by
        rw [← zpow_add₀ two_ne_zero]
        congr 1
        omega
      _ ≤ num := hnlow

theorem Reaches.lt_of_not {num den : Nat} {e e' : Int} (h : Reaches num den e) (h' : ¬Reaches num den e') :
    e < e' := by
  by_contra hle
  rw [reaches_iff] at h h'
  have hmono : (2 : ℚ) ^ e' ≤ 2 ^ e := zpow_le_zpow_right₀ one_le_two (Int.not_lt.1 hle)
  exact h' ((mul_le_mul_of_nonneg_left hmono (Nat.cast_nonneg den)).trans h)

/-- There is one power of two that a quotient reaches without reaching the next one. -/
theorem binaryExponent_eq {num den : Nat} (hn : 0 < num) (hd : 0 < den) {e : Int} (h : Reaches num den e)
    (h' : ¬Reaches num den (e + 1)) : binaryExponent num den = e := by
  obtain ⟨hspec, hspec'⟩ := binaryExponent_spec hn hd
  have := h.lt_of_not hspec'
  have := hspec.lt_of_not h'
  omega

/-- Two quotients that are shifted against each other, as rational numbers. -/
theorem eq_mul_of_shift {num den m : Nat} {e : Int} (h : num <<< (-e).toNat = m * (den <<< e.toNat)) :
    (num : ℚ) = den * (m * 2 ^ e) := by
  have hcast : ((num <<< (-e).toNat : Nat) : ℚ) = ((m * (den <<< e.toNat) : Nat) : ℚ) := by rw [h]
  rw [natCast_shiftLeft num, Nat.cast_mul, shift_eq den] at hcast
  refine mul_right_cancel₀ (one_shiftLeft_pos (-e).toNat).ne' ?_
  rw [hcast]
  ring

theorem binaryExponent_of_eq_mul {num den m : Nat} {e : Int} (hn : 0 < num) (hd : 0 < den) (hm : 0 < m)
    (h : (num : ℚ) = den * (m * 2 ^ e)) : binaryExponent num den = e + m.log2 := by
  have hdq : (0 : ℚ) < den := Nat.cast_pos.2 hd
  refine binaryExponent_eq hn hd ?_ ?_
  · rw [reaches_iff, h, zpow_add₀ two_ne_zero, mul_comm ((2 : ℚ) ^ e)]
    gcongr
    exact two_pow_log2_le hm
  · rw [reaches_iff, h, not_le, add_assoc, zpow_add₀ two_ne_zero, mul_comm ((2 : ℚ) ^ e)]
    gcongr
    exact lt_two_pow_log2 _

/-! ## Rounding -/

theorem roundQuotient_mul (m : Nat) {den : Nat} (hd : 0 < den) : roundQuotient (m * den) den = m := by
  simp only [roundQuotient, Nat.mul_mod_left, Nat.mul_div_cancel m hd]
  rw [if_neg]
  simp only [Bool.or_eq_true, Bool.and_eq_true, decide_eq_true_eq]
  omega

/-- A quotient of the size of a finite double is rounded to that double. -/
theorem ofRatio_of_exact {x : Double} (hfinite : x.isFinite = true) (hzero : x.magnitude ≠ 0) {num den : Nat}
    (hd : 0 < den) (heq : num <<< (-x.exponent).toNat = x.significand * (den <<< x.exponent.toNat)) :
    ofRatio false num den = ofMagnitude false x.magnitude := by
  have hsig := significand_pos hzero
  have hden : 0 < den <<< x.exponent.toNat := by
    rw [Nat.shiftLeft_eq]
    positivity
  have hnum : 0 < num := by
    rw [Nat.shiftLeft_eq] at heq
    exact Nat.pos_of_mul_pos_right (heq ▸ Nat.mul_pos hsig hden)
  have hexp : binaryExponent num den = x.exponent + x.significand.log2 :=
    binaryExponent_of_eq_mul hnum hd hsig (eq_mul_of_shift heq)
  have hmax : max (binaryExponent num den - 52) (-1074) = x.exponent := by
    have hge := x.exponent_ge
    have hlog : x.significand.log2 < 53 := (Nat.log2_lt (Nat.ne_of_gt hsig)).2 x.significand_lt
    rcases x.significand_norm with hnorm | hlow
    · have : 52 ≤ x.significand.log2 := (Nat.le_log2 (Nat.ne_of_gt hsig)).2 hnorm
      omega
    · omega
  have hle : x.magnitude ≤ infinityMagnitude := Nat.le_of_lt (of_decide_eq_true hfinite)
  rw [ofRatio, if_neg (Nat.ne_of_gt hnum)]
  dsimp only
  rw [hmax, heq, roundQuotient_mul _ hden, x.magnitude_eq, Nat.min_eq_left hle]

end Double

/-! ## Decimals -/

namespace Decimal

/-- All digits of a double read back as it. -/
theorem toDouble_exact {x : Double} (hfinite : x.isFinite = true) (hzero : x.magnitude ≠ 0) :
    (exact x).toDouble = .ofMagnitude false x.magnitude := by
  unfold exact
  split
  · next hexp =>
    have hneg : (-x.exponent).toNat = 0 := by omega
    refine Double.ofRatio_of_exact hfinite hzero (Nat.pow_pos (by decide)) ?_
    simp [Double.numerator, tens, Nat.shiftLeft_eq, hneg]
  · next hexp =>
    have hpos : x.exponent.toNat = 0 := by omega
    refine Double.ofRatio_of_exact hfinite hzero (Nat.pow_pos (by decide)) ?_
    have hten : (10 : Nat) ^ (-x.exponent).toNat = 5 ^ (-x.exponent).toNat * 2 ^ (-x.exponent).toNat := by
      rw [← Nat.mul_pow]
    simp only [tens, hpos, Nat.shiftLeft_eq, Nat.pow_eq, pow_zero, mul_one, hten, Nat.mul_assoc]

theorem toDouble_of_ofDigitCount? {x : Double} {count : Nat} {d : Decimal} (h : ofDigitCount? x count = some d) :
    d.toDouble = x := by
  unfold ofDigitCount? at h
  dsimp only at h
  split at h
  · next hlower hupper =>
    split at h
    · cases h
      exact beq_iff_eq.1 hlower
    · cases h
      exact beq_iff_eq.1 hupper
  · next hlower _ =>
    cases h
    exact beq_iff_eq.1 hlower
  · next _ hupper =>
    cases h
    exact beq_iff_eq.1 hupper
  · cases h

/-- **The shortest decimal of a positive finite double reads back as it.** -/
theorem toDouble_shortest {x : Double} (hsign : x.isNegative = false) (hfinite : x.isFinite = true)
    (hzero : x.magnitude ≠ 0) : (shortest x).toDouble = x := by
  unfold shortest
  cases htried : (List.range 17).findSome? fun n => ofDigitCount? x (n + 1) with
  | none => rw [Option.getD_none, toDouble_exact hfinite hzero, Double.ofMagnitude_magnitude hsign]
  | some d =>
    obtain ⟨n, -, hn⟩ := List.exists_of_findSome?_eq_some htried
    rw [Option.getD_some]
    exact toDouble_of_ofDigitCount? hn

end Decimal
end Docbase
