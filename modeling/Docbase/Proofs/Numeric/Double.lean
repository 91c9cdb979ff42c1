/-
Doubles as numbers: numeric equality is symmetric and transitive, and holds
between a double and itself unless it is not a number. Rounding always gives a
number (`isNaN_ofRatio`).
-/
import Docbase.Numeric.Double

namespace Docbase

namespace Double

theorem numEq_iff {x y : Double} :
    x.numEq y = true ↔ x.isNaN = false ∧ y.isNaN = false ∧ x.rank = y.rank := by
  unfold numEq ordering?
  by_cases h : (x.isNaN || y.isNaN) = true
  · rw [if_pos h]
    simp only [Bool.or_eq_true] at h
    rcases h with h | h <;> simp [h]
  · rw [if_neg h]
    simp only [Bool.or_eq_true, not_or, Bool.not_eq_true] at h
    simp [h.1, h.2]

theorem numEq_symm {x y : Double} (h : x.numEq y = true) : y.numEq x = true := by
  obtain ⟨hx, hy, hrank⟩ := numEq_iff.1 h
  exact numEq_iff.2 ⟨hy, hx, hrank.symm⟩

theorem numEq_trans {x y z : Double} (hxy : x.numEq y = true) (hyz : y.numEq z = true) :
    x.numEq z = true := by
  obtain ⟨hx, -, hrank⟩ := numEq_iff.1 hxy
  obtain ⟨-, hz, hrank'⟩ := numEq_iff.1 hyz
  exact numEq_iff.2 ⟨hx, hz, hrank.trans hrank'⟩

theorem numEq_self {x : Double} (h : x.isNaN = false) : x.numEq x = true := numEq_iff.2 ⟨h, h, rfl⟩

theorem magnitude_ofMagnitude {negative : Bool} {m : Nat} (h : m ≤ infinityMagnitude) :
    (ofMagnitude negative m).magnitude = m := by
  simp only [infinityMagnitude, exponentBit] at h
  simp only [magnitude, ofMagnitude, signBit, UInt64.toNat_ofNat']
  cases negative
  · simp only [Bool.false_eq_true, if_false]
    omega
  · simp only [if_true]
    omega

theorem isNaN_ofMagnitude {negative : Bool} {m : Nat} (h : m ≤ infinityMagnitude) :
    (ofMagnitude negative m).isNaN = false := by
  rw [isNaN, magnitude_ofMagnitude h]
  exact decide_eq_false (Nat.not_lt.2 h)

theorem isNaN_ofRatio (negative : Bool) (num den : Nat) : (ofRatio negative num den).isNaN = false := by
  unfold ofRatio
  split
  · exact isNaN_ofMagnitude (Nat.zero_le _)
  · exact isNaN_ofMagnitude (Nat.min_le_right _ _)

end Double
end Docbase
