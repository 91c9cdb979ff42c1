/-
Whole numbers as doubles. Rounding keeps their order (`rank_ofInt_mono`), but far from zero it may
give two of them one double; a whole number below `2 ^ 53` in size shares its double with no other
(`ofInt_injective`). So the doubles of whole numbers compare as the numbers do, or are the same:
`ordering?_ofInt`.
-/
import Docbase.Proofs.Numeric.Rounding

namespace Docbase.Double

/-! ## Rounding quotients -/

theorem roundQuotient_bounds (num den : Nat) :
    num / den ≤ roundQuotient num den ∧ roundQuotient num den ≤ num / den + 1 := by
  unfold roundQuotient
  dsimp only
  split <;> omega

theorem roundQuotient_mono {m n : Nat} (den : Nat) (h : m ≤ n) : roundQuotient m den ≤ roundQuotient n den := by
  have hquotient : m / den ≤ n / den := Nat.div_le_div_right h
  rcases Nat.lt_or_eq_of_le hquotient with hlt | heq
  · have := (roundQuotient_bounds m den).2
    have := (roundQuotient_bounds n den).1
    omega
  · -- With one whole part, the smaller number is not the only one to be rounded up.
    have hrest : m % den ≤ n % den := by
      have hm := Nat.div_add_mod m den
      have hn := Nat.div_add_mod n den
      rw [heq] at hm
      omega
    simp only [roundQuotient, heq, Bool.or_eq_true, Bool.and_eq_true, decide_eq_true_eq]
    split <;> split <;> omega

/-! ## Magnitudes -/

/-- A positive whole number, scaled to fifty-three bits and rounded. -/
def scaled (n : Nat) : Nat := roundQuotient (n <<< (52 - n.log2)) (1 <<< (n.log2 - 52))

theorem magnitude_ofNat {n : Nat} (h : 0 < n) :
    (ofNat n).magnitude = min ((n.log2 + 1022) * exponentBit + scaled n) infinityMagnitude := by
  have hexp : binaryExponent n 1 = n.log2 := by
    rw [binaryExponent_of_eq_mul (e := 0) h Nat.one_pos h (by simp), Int.zero_add]
  have hmax : max ((n.log2 : Int) - 52) (-1074) = (n.log2 : Int) - 52 := by omega
  have hneg : (-((n.log2 : Int) - 52)).toNat = 52 - n.log2 := by omega
  have hpos : ((n.log2 : Int) - 52).toNat = n.log2 - 52 := by omega
  have hbits : ((n.log2 : Int) - 52 + 1074).toNat = n.log2 + 1022 := by omega
  rw [ofNat, ofRatio, if_neg (Nat.ne_of_gt h)]
  dsimp only
  rw [hexp, hmax, hneg, hpos, hbits, magnitude_ofMagnitude (Nat.min_le_right _ _), scaled]

theorem magnitude_ofNat_zero : (ofNat 0).magnitude = 0 := by decide

theorem log2_le_of_lt {n : Nat} (h : n < 2 ^ 53) : n.log2 ≤ 52 := by
  rcases Nat.eq_zero_or_pos n with rfl | hn
  · decide
  · exact Nat.le_of_lt_succ ((Nat.log2_lt (Nat.ne_of_gt hn)).2 h)

/-- A number below `2 ^ 53` need not be rounded. -/
theorem scaled_of_lt {n : Nat} (h : n < 2 ^ 53) : scaled n = n * 2 ^ (52 - n.log2) := by
  have hlog : n.log2 - 52 = 0 := Nat.sub_eq_zero_of_le (log2_le_of_lt h)
  have hround := roundQuotient_mul (n * 2 ^ (52 - n.log2)) Nat.one_pos
  rw [Nat.mul_one] at hround
  rw [scaled, hlog, Nat.shiftLeft_eq]
  exact hround

theorem scaled_lt_of_lt {n : Nat} (h : n < 2 ^ 53) : scaled n < 2 * exponentBit := by
  have hlog := log2_le_of_lt h
  have hhigh : n < 2 ^ (n.log2 + 1) := Nat.lt_log2_self
  calc scaled n = n * 2 ^ (52 - n.log2) := scaled_of_lt h
    _ < 2 ^ (n.log2 + 1) * 2 ^ (52 - n.log2) := Nat.mul_lt_mul_of_pos_right hhigh (Nat.two_pow_pos _)
    _ = 2 * exponentBit := by
      rw [← Nat.pow_add, show n.log2 + 1 + (52 - n.log2) = 53 by omega]
      rfl

theorem scaled_bounds {n : Nat} (h : 0 < n) : exponentBit ≤ scaled n ∧ scaled n ≤ 2 * exponentBit := by
  have hlow := Nat.log2_self_le (Nat.ne_of_gt h)
  rcases Nat.lt_or_ge n (2 ^ 53) with hlt | hge
  · refine ⟨?_, Nat.le_of_lt (scaled_lt_of_lt hlt)⟩
    have hlog := log2_le_of_lt hlt
    calc exponentBit = 2 ^ n.log2 * 2 ^ (52 - n.log2) := by
          rw [← Nat.pow_add, Nat.add_sub_of_le hlog]
          rfl
      _ ≤ n * 2 ^ (52 - n.log2) := Nat.mul_le_mul_right _ hlow
      _ = scaled n := (scaled_of_lt hlt).symm
  · have hlog : 53 ≤ n.log2 := (Nat.le_log2 (Nat.ne_of_gt h)).2 hge
    have hhigh : n < 2 ^ (n.log2 + 1) := Nat.lt_log2_self
    have hwhole : n <<< (52 - n.log2) = n := by
      rw [Nat.sub_eq_zero_of_le (by omega), Nat.shiftLeft_zero]
    have hlowq : exponentBit ≤ n / 2 ^ (n.log2 - 52) := by
      rw [Nat.le_div_iff_mul_le (Nat.two_pow_pos _)]
      refine Nat.le_trans (Nat.le_of_eq ?_) hlow
      rw [show exponentBit = 2 ^ 52 from rfl, ← Nat.pow_add, Nat.add_sub_of_le (by omega)]
    have hhighq : n / 2 ^ (n.log2 - 52) < 2 * exponentBit := by
      rw [Nat.div_lt_iff_lt_mul (Nat.two_pow_pos _)]
      refine Nat.lt_of_lt_of_eq hhigh ?_
      rw [show 2 * exponentBit = 2 ^ 53 from rfl, ← Nat.pow_add]
      congr 1
      omega
    have hround := roundQuotient_bounds n (2 ^ (n.log2 - 52))
    rw [scaled, hwhole, Nat.shiftLeft_eq, Nat.one_mul]
    omega

theorem log2_mono {m n : Nat} (hm : 0 < m) (h : m ≤ n) : m.log2 ≤ n.log2 := by
  have := Nat.log2_self_le (Nat.ne_of_gt hm)
  exact (Nat.le_log2 (by omega)).2 (by omega)

theorem magnitude_ofNat_mono {m n : Nat} (h : m ≤ n) : (ofNat m).magnitude ≤ (ofNat n).magnitude := by
  rcases Nat.eq_zero_or_pos m with rfl | hm
  · rw [magnitude_ofNat_zero]
    exact Nat.zero_le _
  · have hn : 0 < n := Nat.lt_of_lt_of_le hm h
    rw [magnitude_ofNat hm, magnitude_ofNat hn]
    refine min_le_min_right _ ?_
    rcases Nat.lt_or_eq_of_le (log2_mono hm h) with hlt | heq
    · have hstep := Nat.mul_le_mul_right exponentBit (show m.log2 + 1022 + 1 ≤ n.log2 + 1022 by omega)
      have := (scaled_bounds hm).2
      have := (scaled_bounds hn).1
      rw [Nat.add_mul _ 1] at hstep
      omega
    · rw [heq]
      refine Nat.add_le_add_left ?_ _
      rw [scaled, scaled, heq, Nat.shiftLeft_eq m, Nat.shiftLeft_eq n]
      exact roundQuotient_mono _ (Nat.mul_le_mul_right _ h)

/-- A number below `2 ^ 53` is kept apart from all larger ones. -/
theorem magnitude_ofNat_lt {m n : Nat} (hm : m < 2 ^ 53) (h : m < n) :
    (ofNat m).magnitude < (ofNat n).magnitude := by
  have hn : 0 < n := by omega
  have hlow := (scaled_bounds hn).1
  have hinfinity : infinityMagnitude = 2047 * exponentBit := rfl
  have hbit : 0 < exponentBit := by decide
  rcases Nat.eq_zero_or_pos m with rfl | hpos
  · rw [magnitude_ofNat_zero, magnitude_ofNat hn]
    exact lt_min (by omega) (by omega)
  · have hlog := log2_le_of_lt hm
    have hhigh := scaled_lt_of_lt hm
    have hfinite : (m.log2 + 1022) * exponentBit ≤ 1074 * exponentBit := Nat.mul_le_mul_right _ (by omega)
    rw [magnitude_ofNat hpos, magnitude_ofNat hn]
    refine min_lt_of_left_lt (lt_min ?_ (by omega))
    rcases Nat.lt_or_eq_of_le (log2_mono hpos (Nat.le_of_lt h)) with hlt | heq
    · have hstep := Nat.mul_le_mul_right exponentBit (show m.log2 + 1022 + 1 ≤ n.log2 + 1022 by omega)
      rw [Nat.add_mul _ 1] at hstep
      omega
    · have hn' : n < 2 ^ 53 := (Nat.log2_lt (Nat.ne_of_gt hn)).1 (by omega)
      rw [scaled_of_lt hm, scaled_of_lt hn', heq]
      exact Nat.add_lt_add_left (Nat.mul_lt_mul_of_pos_right h (Nat.two_pow_pos _)) _

/-! ## Order -/

theorem rank_ofMagnitude {negative : Bool} {m : Nat} (h : m ≤ infinityMagnitude) :
    (ofMagnitude negative m).rank = if negative then -(m : Int) else m := by
  rw [rank, isNegative_ofMagnitude h, magnitude_ofMagnitude h]

theorem magnitude_ofNat_le (n : Nat) : (ofNat n).magnitude ≤ infinityMagnitude :=
  Nat.not_lt.1 (of_decide_eq_false (isNaN_ofRatio false n 1))

theorem ofInt_eq (i : Int) : ofInt i = ofMagnitude (i < 0) (ofNat i.natAbs).magnitude := by
  rw [ofInt, ofNat, ofRatio, ofRatio]
  split
  · rw [magnitude_ofMagnitude (Nat.zero_le _)]
  · dsimp only
    rw [magnitude_ofMagnitude (Nat.min_le_right _ _)]

theorem rank_ofInt (i : Int) :
    (ofInt i).rank = if i < 0 then -((ofNat i.natAbs).magnitude : Int) else (ofNat i.natAbs).magnitude := by
  rw [ofInt_eq, rank_ofMagnitude (magnitude_ofNat_le _)]
  simp only [decide_eq_true_eq]

theorem rank_ofInt_mono {a b : Int} (h : a ≤ b) : (ofInt a).rank ≤ (ofInt b).rank := by
  rw [rank_ofInt, rank_ofInt]
  by_cases ha : a < 0
  · by_cases hb : b < 0
    · have := magnitude_ofNat_mono (show b.natAbs ≤ a.natAbs by omega)
      simp only [ha, hb, if_true]
      omega
    · simp only [ha, hb, if_true, if_false]
      omega
  · have hb : ¬b < 0 := by omega
    have := magnitude_ofNat_mono (show a.natAbs ≤ b.natAbs by omega)
    simp only [ha, hb, if_false]
    omega

/-- Unless both are far from zero, two whole numbers keep their order. -/
theorem rank_ofInt_lt {a b : Int} (h : a < b) (hsmall : a.natAbs < 2 ^ 53 ∨ b.natAbs < 2 ^ 53) :
    (ofInt a).rank < (ofInt b).rank := by
  rw [rank_ofInt, rank_ofInt]
  by_cases ha : a < 0
  · by_cases hb : b < 0
    · have := magnitude_ofNat_lt (m := b.natAbs) (n := a.natAbs) (by omega) (by omega)
      simp only [ha, hb, if_true]
      omega
    · -- a negative number has a magnitude
      have := magnitude_ofNat_lt (m := 0) (n := a.natAbs) (by decide) (by omega)
      simp only [ha, hb, if_true, if_false]
      omega
  · have hb : ¬b < 0 := by omega
    have := magnitude_ofNat_lt (m := a.natAbs) (n := b.natAbs) (by omega) (by omega)
    simp only [ha, hb, if_false]
    omega

/-- Whole numbers that stand at one place among the doubles have one double. -/
theorem rank_ofInt_inj {a b : Int} : (ofInt a).rank = (ofInt b).rank ↔ ofInt a = ofInt b := by
  constructor
  · intro h
    by_cases hsign : a < 0 ↔ b < 0
    · have hmagnitude : (ofNat a.natAbs).magnitude = (ofNat b.natAbs).magnitude := by
        rw [rank_ofInt, rank_ofInt, if_congr hsign rfl rfl] at h
        split at h <;> omega
      rw [ofInt_eq a, ofInt_eq b, hmagnitude, decide_eq_decide.2 hsign]
    · -- Zero stands between numbers of different signs.
      by_cases ha : a < 0
      · have := rank_ofInt_lt ha (.inr (by decide))
        have := rank_ofInt_mono (show 0 ≤ b by omega)
        omega
      · have := rank_ofInt_lt (show b < 0 by omega) (.inr (by decide))
        have := rank_ofInt_mono (show 0 ≤ a by omega)
        omega
  · intro h
    rw [h]

theorem ofInt_injective {a b : Int} (hsmall : a.natAbs < 2 ^ 53 ∨ b.natAbs < 2 ^ 53)
    (h : ofInt a = ofInt b) : a = b := by
  have hrank := rank_ofInt_inj.2 h
  rcases Int.lt_trichotomy a b with hlt | heq | hgt
  · have := rank_ofInt_lt hlt hsmall
    omega
  · exact heq
  · have := rank_ofInt_lt hgt hsmall.symm
    omega

/-- **Whole numbers compare as doubles as they do themselves, or have one double.** -/
theorem ordering?_ofInt (a b : Int) :
    (ofInt a).ordering? (ofInt b) = some (if ofInt a = ofInt b then .eq else compare a b) := by
  have hnan (i : Int) : (ofInt i).isNaN = false := isNaN_ofRatio _ _ _
  rw [ordering?, hnan a, hnan b, Bool.or_self, if_neg Bool.false_ne_true, Option.some.injEq]
  by_cases heq : ofInt a = ofInt b
  · rw [if_pos heq, heq, compare_eq_iff_eq]
  · have hrank : (ofInt a).rank ≠ (ofInt b).rank := fun h => heq (rank_ofInt_inj.1 h)
    rw [if_neg heq]
    rcases Int.lt_trichotomy a b with hlt | rfl | hgt
    · have := rank_ofInt_mono (Int.le_of_lt hlt)
      rw [compare_lt_iff_lt.2 hlt, compare_lt_iff_lt]
      omega
    · exact absurd rfl heq
    · have := rank_ofInt_mono (Int.le_of_lt hgt)
      rw [compare_gt_iff_gt.2 hgt, compare_gt_iff_gt]
      omega

end Docbase.Double
