/-
The text of a double is a numeral, as the sets of numbers in a query write it, and read back it is
the same double (`Double.exists_numeral_of_finite`). A decimal is written out in full, so its text has
just the digits it is made of, with zeros for the places that they leave open
(`Decimal.exists_numeral`).

So a text belongs to one double: `Double.text_inj`.
-/
import Docbase.Proofs.Expression.NumberSet
import Docbase.Proofs.Numeric.Rounding

namespace Docbase

open Expression (Numeral IsDigits)

namespace Decimal

/-! ## Digits -/

theorem ofDigitChars_eq (cs : List Char) : ofDigitChars cs = Nat.ofDigitChars 10 cs 0 := by
  simp only [ofDigitChars, Nat.ofDigitChars, Nat.mul_comm]

theorem ofDigitChars_toDigits (n : Nat) : ofDigitChars (Nat.toDigits 10 n) = n := by
  rw [ofDigitChars_eq, Nat.ofDigitChars_ten_toDigits]

theorem ofDigitChars_zeros_append (k : Nat) (cs : List Char) :
    ofDigitChars (List.replicate k '0' ++ cs) = ofDigitChars cs := by
  simp [ofDigitChars_eq, Nat.ofDigitChars_append, Nat.ofDigitChars_replicate_zero]

theorem ofDigitChars_append_zeros (cs : List Char) (k : Nat) :
    ofDigitChars (cs ++ List.replicate k '0') = ofDigitChars cs * tens k := by
  simp [ofDigitChars_eq, Nat.ofDigitChars_append, Nat.ofDigitChars_replicate_zero, tens, Nat.mul_comm]

theorem isDigits_toDigits (n : Nat) : IsDigits (Nat.toDigits 10 n) :=
  ⟨Nat.toDigits_ne_nil, fun _ hc => Nat.isDigit_of_mem_toDigits (by decide) (by decide) hc⟩

theorem isDigit_of_mem_zeros {k : Nat} {c : Char} (hc : c ∈ List.replicate k '0') : c.isDigit = true := by
  rw [List.eq_of_mem_replicate hc]
  decide

/-! ## Positional notation -/

/-- A decimal in positional notation is a numeral of the same value. -/
theorem exists_numeral (d : Decimal) :
    ∃ n : Numeral, n.WellFormed ∧ n.write = d.positional ∧ n.toDouble = d.toDouble := by
  obtain ⟨hne, hdigits⟩ := isDigits_toDigits d.digits
  unfold positional
  dsimp only
  split
  · next hexp =>
    -- Zeros up to the point, and no fraction.
    refine ⟨⟨Nat.toDigits 10 d.digits ++ List.replicate d.exponent.toNat '0', []⟩, ⟨⟨by simp [hne], ?_⟩, by simp⟩,
      rfl, ?_⟩
    · exact List.forall_mem_append.2 ⟨hdigits, fun _ => isDigit_of_mem_zeros⟩
    · have hneg : (-d.exponent).toNat = 0 := by omega
      simp only [Numeral.toDouble, toDouble, ofPlaces, List.append_nil, ofDigitChars_append_zeros,
        ofDigitChars_toDigits, List.length_nil, hneg]
      simp [tens]
  · next hexp =>
    have hplaces : -((-d.exponent).toNat : Int) = d.exponent := by omega
    have hpos : 0 < (-d.exponent).toNat := by omega
    generalize (-d.exponent).toNat = places at hplaces hpos ⊢
    split
    · next hlt =>
      -- The point stands among the digits.
      refine ⟨⟨(Nat.toDigits 10 d.digits).take ((Nat.toDigits 10 d.digits).length - places),
        (Nat.toDigits 10 d.digits).drop ((Nat.toDigits 10 d.digits).length - places)⟩, ⟨⟨?_, ?_⟩, ?_⟩, ?_, ?_⟩
      · rw [Ne, List.take_eq_nil_iff, not_or]
        exact ⟨by omega, hne⟩
      · exact fun c hc => hdigits c (List.mem_of_mem_take hc)
      · exact fun c hc => hdigits c (List.mem_of_mem_drop hc)
      · rw [Numeral.write, if_neg]
        rw [List.isEmpty_iff, List.drop_eq_nil_iff]
        omega
      · have hlength : (Nat.toDigits 10 d.digits).length -
            ((Nat.toDigits 10 d.digits).length - places) = places := by omega
        simp only [Numeral.toDouble, ofPlaces, List.take_append_drop, ofDigitChars_toDigits,
          List.length_drop, hlength, hplaces]
    · next hge =>
      -- The point stands in front of the digits, with zeros between them.
      refine ⟨⟨['0'], List.replicate (places - (Nat.toDigits 10 d.digits).length) '0' ++ Nat.toDigits 10 d.digits⟩,
        ⟨⟨by simp, by simp⟩, ?_⟩, ?_, ?_⟩
      · exact List.forall_mem_append.2 ⟨fun _ => isDigit_of_mem_zeros, hdigits⟩
      · rw [Numeral.write, if_neg (by simp [hne])]
        rfl
      · have hzeros : ofDigitChars (['0'] ++ (List.replicate (places - (Nat.toDigits 10 d.digits).length) '0' ++
            Nat.toDigits 10 d.digits)) = d.digits := by
          rw [show ['0'] = List.replicate 1 '0' from rfl, ofDigitChars_zeros_append, ofDigitChars_zeros_append,
            ofDigitChars_toDigits]
        have hlength : places - (Nat.toDigits 10 d.digits).length + (Nat.toDigits 10 d.digits).length = places := by
          omega
        simp only [Numeral.toDouble, ofPlaces, hzeros, List.length_append, List.length_replicate, hlength, hplaces]

end Decimal

namespace Double

variable {x y : Double}

theorem magnitude_le_of_isNaN (h : x.isNaN = false) : x.magnitude ≤ infinityMagnitude :=
  Nat.not_lt.1 (of_decide_eq_false h)

theorem ofMagnitude_isNegative (x : Double) : ofMagnitude x.isNegative x.magnitude = x := by
  cases hsign : x.isNegative with
  | false => exact ofMagnitude_magnitude hsign
  | true =>
    obtain ⟨bits⟩ := x
    have hlt : bits.toNat < 2 ^ 64 := bits.toNat_lt
    have hle : signBit ≤ bits.toNat := of_decide_eq_true hsign
    simp only [signBit] at hle
    have hsum : bits.toNat % signBit + signBit = bits.toNat := by
      simp only [signBit]
      omega
    simp only [ofMagnitude, magnitude, if_true, hsum, UInt64.ofNat_toNat]

/-- Two doubles of one sign and one magnitude are one double. -/
theorem eq_of_magnitude (hsign : x.isNegative = y.isNegative) (h : x.magnitude = y.magnitude) : x = y := by
  rw [← x.ofMagnitude_isNegative, ← y.ofMagnitude_isNegative, hsign, h]

/-! ## Texts -/

theorem text_of_isInfinite (hsign : x.isNegative = false) (h : x.magnitude = infinityMagnitude) :
    x.text = "inf" := by
  have hnan : x.isNaN = false := decide_eq_false (by omega)
  have hinf : x.isInfinite = true := decide_eq_true h
  simp [text, hnan, hsign, hinf]

/-- **The text of a finite double without a sign is a numeral that reads back as it.** -/
theorem exists_numeral_of_finite (hsign : x.isNegative = false) (h : x.magnitude < infinityMagnitude) :
    ∃ n : Numeral, n.WellFormed ∧ x.text.toList = n.write ∧ n.toDouble = x := by
  have hnan : x.isNaN = false := decide_eq_false (by omega)
  have hinf : x.isInfinite = false := decide_eq_false (by omega)
  have hsize := ofMagnitude_magnitude hsign
  simp only [text, hnan, hinf, hsign, hsize, Bool.false_eq_true, if_false, List.nil_append,
    String.toList_ofList]
  split
  · next hzero =>
    refine ⟨⟨['0'], []⟩, ⟨⟨by simp, by simp⟩, by simp⟩, rfl, ?_⟩
    have hzero' : (⟨['0'], []⟩ : Numeral).toDouble = ofMagnitude false 0 := by decide
    rw [hzero', ← hzero, hsize]
  · next hzero =>
    obtain ⟨n, hn, hwrite, hvalue⟩ := (Decimal.shortest x).exists_numeral
    exact ⟨n, hn, hwrite.symm, by rw [hvalue, Decimal.toDouble_shortest hsign (decide_eq_true h) hzero]⟩

/-- The sign stands in front of the text, and what follows it is the text of the size. -/
theorem text_of_isNegative (hsign : x.isNegative = true) (hnan : x.isNaN = false) :
    x.text.toList = '-' :: (ofMagnitude false x.magnitude).text.toList := by
  have hle := magnitude_le_of_isNaN hnan
  have hsize : (ofMagnitude false x.magnitude).isNegative = false := isNegative_ofMagnitude hle
  have hnan' : (ofMagnitude false x.magnitude).isNaN = false := isNaN_ofMagnitude hle
  simp only [text, hnan, hnan', hsign, hsize, isInfinite, magnitude_ofMagnitude hle, Bool.false_eq_true, if_true,
    if_false, String.toList_ofList, List.singleton_append, List.nil_append]
  rfl

/-- The characters of a text without a sign: digits and a point, or those of an infinity. -/
theorem mem_text (hsign : x.isNegative = false) (hnan : x.isNaN = false) {c : Char} (hc : c ∈ x.text.toList) :
    c.isDigit = true ∨ c = '.' ∨ x.text = "inf" := by
  rcases Nat.lt_or_eq_of_le (magnitude_le_of_isNaN hnan) with hlt | heq
  · obtain ⟨n, hn, htext, -⟩ := exists_numeral_of_finite hsign hlt
    exact (hn.mem_write (htext ▸ hc)).imp_right .inl
  · exact .inr (.inr (text_of_isInfinite hsign heq))

theorem not_mem_text (hsign : x.isNegative = false) (hnan : x.isNaN = false) {c : Char}
    (hdigit : c.isDigit = false) (hc : c ∉ ".inf".toList) : c ∉ x.text.toList := by
  intro hmem
  rcases mem_text hsign hnan hmem with h | rfl | h
  · rw [hdigit] at h
    cases h
  · exact hc (by decide)
  · rw [h] at hmem
    exact hc (List.mem_cons_of_mem _ hmem)

theorem text_ne_nil (hsign : x.isNegative = false) (hnan : x.isNaN = false) : x.text.toList ≠ [] := by
  rcases Nat.lt_or_eq_of_le (magnitude_le_of_isNaN hnan) with hlt | heq
  · obtain ⟨n, hn, htext, -⟩ := exists_numeral_of_finite hsign hlt
    rw [htext]
    exact hn.isPiece.ne_nil
  · rw [text_of_isInfinite hsign heq]
    decide

theorem eq_of_text_eq_of_nonneg (hx : x.isNegative = false) (hy : y.isNegative = false)
    (hxnan : x.isNaN = false) (hynan : y.isNaN = false) (h : x.text = y.text) : x = y := by
  have hfree {n : Numeral} (hn : n.WellFormed) : "inf".toList ≠ n.write := by
    intro heq
    rcases hn.mem_write (c := 'i') (heq ▸ by decide) with hi | hi
    · exact absurd hi (by decide)
    · exact absurd hi (by decide)
  rcases Nat.lt_or_eq_of_le (magnitude_le_of_isNaN hxnan) with hxlt | hxinf <;>
    rcases Nat.lt_or_eq_of_le (magnitude_le_of_isNaN hynan) with hylt | hyinf
  · obtain ⟨n, hn, hntext, rfl⟩ := exists_numeral_of_finite hx hxlt
    obtain ⟨m, hm, hmtext, rfl⟩ := exists_numeral_of_finite hy hylt
    have hread := hn.read?_write
    rw [← hntext, h, hmtext, hm.read?_write, Option.some.injEq] at hread
    rw [hread]
  · obtain ⟨n, hn, hntext, -⟩ := exists_numeral_of_finite hx hxlt
    rw [h, text_of_isInfinite hy hyinf] at hntext
    exact absurd hntext (hfree hn)
  · obtain ⟨m, hm, hmtext, -⟩ := exists_numeral_of_finite hy hylt
    rw [← h, text_of_isInfinite hx hxinf] at hmtext
    exact absurd hmtext (hfree hm)
  · exact eq_of_magnitude (hx.trans hy.symm) (hxinf.trans hyinf.symm)

/-- **Doubles that are numbers have texts of their own.** -/
theorem text_inj (hx : x.isNaN = false) (hy : y.isNaN = false) : x.text = y.text ↔ x = y := by
  refine ⟨fun h => ?_, fun h => by rw [h]⟩
  have hminus {x y : Double} (hx : x.isNaN = false) (hy : y.isNaN = false) (hxs : x.isNegative = true)
      (hys : y.isNegative = false) : x.text ≠ y.text := by
    intro h
    refine not_mem_text (c := '-') hys hy (by decide) (by decide) ?_
    rw [← h, text_of_isNegative hxs hx]
    exact List.mem_cons_self
  cases hxs : x.isNegative <;> cases hys : y.isNegative
  · exact eq_of_text_eq_of_nonneg hxs hys hx hy h
  · exact absurd h.symm (hminus hy hx hys hxs)
  · exact absurd h (hminus hx hy hxs hys)
  · have hxle := magnitude_le_of_isNaN hx
    have hyle := magnitude_le_of_isNaN hy
    have hlist := congrArg String.toList h
    rw [text_of_isNegative hxs hx, text_of_isNegative hys hy, List.cons.injEq] at hlist
    have hsize := eq_of_text_eq_of_nonneg (isNegative_ofMagnitude hxle) (isNegative_ofMagnitude hyle)
      (isNaN_ofMagnitude hxle) (isNaN_ofMagnitude hyle) (String.toList_inj.1 hlist.2)
    refine eq_of_magnitude (hxs.trans hys.symm) ?_
    rw [← @magnitude_ofMagnitude false _ hxle, hsize, magnitude_ofMagnitude hyle]

end Double
end Docbase
