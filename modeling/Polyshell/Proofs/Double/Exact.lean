/-
  Where rounding loses nothing, and what it depends on.

  The last place of a quotient is the only one that its size allows (`lastPlace_unique`), and the
  nearest whole number depends on the quotient alone (`roundDiv_congr`).  So equal quotients round to
  one double, however they are written (`ofRatio_congr`).  A whole number below `2^53` is a double
  (`abs_ofInt`), and so are the powers of ten up to the twenty-second; a quotient of two such is
  therefore rounded once, whether it is taken in doubles or not (`div_ofInt_pow`).
-/
import Polyshell.Proofs.Double.Rounding

namespace Polyshell.Double

/-! ## Equal quotients -/

/-- The nearest whole number depends on the quotient alone. -/
theorem roundDiv_congr {num den num' den' : Nat} (hden : 0 < den) (hden' : 0 < den')
    (h : num * den' = num' * den) : roundDiv num den = roundDiv num' den' := by
  have hdiv : num / den = num' / den' := by
    rw [← Nat.mul_div_mul_right num den hden', h, Nat.mul_comm den den',
      Nat.mul_div_mul_right num' den' hden]
  -- what is left over is the same part of one
  have hmod : num % den * den' = num' % den' * den := by
    have hsplit := congrArg (· * den') (Nat.div_add_mod num den)
    have hsplit' := congrArg (· * den) (Nat.div_add_mod num' den')
    simp only [Nat.add_mul] at hsplit hsplit'
    rw [hdiv] at hsplit
    have hwhole : den * (num' / den') * den' = den' * (num' / den') * den := by ring
    omega
  have hlt : 2 * (num % den) < den ↔ 2 * (num' % den') < den' := by
    rw [← Nat.mul_lt_mul_right hden', Nat.mul_assoc, hmod, Nat.mul_comm den den', ← Nat.mul_assoc,
      Nat.mul_lt_mul_right hden]
  have hgt : den < 2 * (num % den) ↔ den' < 2 * (num' % den') := by
    rw [← Nat.mul_lt_mul_right hden', Nat.mul_assoc, hmod, Nat.mul_comm den den', ← Nat.mul_assoc,
      Nat.mul_lt_mul_right hden]
  simp only [roundDiv, hdiv, hlt, hgt]

section Quotients

variable {num den num' den' : Nat} (hnum : 0 < num) (hden : 0 < den) (hnum' : 0 < num')
  (hden' : 0 < den')
include hnum hden hnum' hden'

theorem lastPlace_le_of_le (h : (num : ℚ) / den ≤ num' / den') :
    lastPlace num den ≤ lastPlace num' den' := by
  by_contra hlt
  have hmin := neg_le_lastPlace num' den'
  have hlow := lastPlace_lower hnum hden (by omega)
  have hup := lastPlace_upper hnum' hden'
  have hpow : (2 : ℚ) ^ (53 : Int) * 2 ^ lastPlace num' den' ≤
      2 ^ (52 : Int) * 2 ^ lastPlace num den := by
    rw [← zpow_add₀ (by norm_num), ← zpow_add₀ (by norm_num)]
    exact zpow_le_zpow_right₀ (by norm_num) (by omega)
  linarith

end Quotients

/-- Equal quotients round to one double. -/
theorem ofRatio_congr (negative : Bool) {num den num' den' : Nat} (hden : 0 < den) (hden' : 0 < den')
    (h : num * den' = num' * den) : ofRatio negative num den = ofRatio negative num' den' := by
  rcases Nat.eq_zero_or_pos num with rfl | hnum
  · rw [Nat.zero_mul] at h
    have hzero : num' = 0 := (Nat.mul_eq_zero.mp h.symm).resolve_right (Nat.ne_of_gt hden)
    rw [hzero, ofRatio, ofRatio, if_pos rfl, if_pos rfl]
  · have hnum' : 0 < num' := by
      have hpos := Nat.mul_pos hnum hden'
      rw [h] at hpos
      exact Nat.pos_of_mul_pos_right hpos
    have hquot : (num : ℚ) / den = num' / den' := by
      rw [div_eq_div_iff (Nat.cast_ne_zero.mpr (Nat.ne_of_gt hden))
        (Nat.cast_ne_zero.mpr (Nat.ne_of_gt hden'))]
      exact_mod_cast h
    have hplace : lastPlace num den = lastPlace num' den' :=
      Int.le_antisymm (lastPlace_le_of_le hnum hden hnum' hden' hquot.le)
        (lastPlace_le_of_le hnum' hden' hnum hden hquot.ge)
    have hround : ∀ a b : Nat, 0 < b →
        roundDiv (num * a) (den * b) = roundDiv (num' * a) (den' * b) := by
      intro a b hb
      refine roundDiv_congr (Nat.mul_pos hden hb) (Nat.mul_pos hden' hb) ?_
      calc num * a * (den' * b) = num * den' * (a * b) := by ring
        _ = num' * den * (a * b) := by rw [h]
        _ = num' * a * (den * b) := by ring
    have hsignificand := hround (Nat.pow 2 (-lastPlace num' den').toNat)
      (Nat.pow 2 (lastPlace num' den').toNat) (Nat.pow_pos (by decide))
    rw [ofRatio, ofRatio, if_neg (Nat.ne_of_gt hnum), if_neg (Nat.ne_of_gt hnum'), hplace]
    simp only [hsignificand]

/-! ## Signs -/

theorem isNegative_ofSignedBits (negative : Bool) {n : Nat} (h : n < Nat.pow 2 63) :
    (ofSignedBits negative n).isNegative = negative := by
  rw [isNegative, toNat_ofSignedBits negative h]
  cases negative with
  | true => simp
  | false => simp [h]

/-- Every rounding is a pattern with the sign put in front. -/
theorem exists_ofSignedBits (num den : Nat) :
    ∃ n, n < Nat.pow 2 63 ∧ ∀ negative, ofRatio negative num den = ofSignedBits negative n := by
  by_cases hzero : num = 0
  · exact ⟨0, by decide, fun negative => by rw [ofRatio, if_pos hzero, zero]⟩
  · by_cases hbig : 2047 * Nat.pow 2 52 ≤ (lastPlace num den + 1074).toNat * Nat.pow 2 52 +
        roundDiv (num * Nat.pow 2 (-lastPlace num den).toNat)
          (den * Nat.pow 2 (lastPlace num den).toNat)
    · refine ⟨2047 * Nat.pow 2 52, by decide, fun negative => ?_⟩
      rw [ofRatio, if_neg hzero]
      simp only [if_pos hbig, infinity]
    · refine ⟨_, Nat.lt_trans (Nat.lt_of_not_le hbig) (by decide), fun negative => ?_⟩
      rw [ofRatio, if_neg hzero]
      simp only [if_neg hbig]

theorem isNegative_ofRatio (negative : Bool) (num den : Nat) :
    (ofRatio negative num den).isNegative = negative := by
  obtain ⟨n, hn, hbits⟩ := exists_ofSignedBits num den
  rw [hbits, isNegative_ofSignedBits negative hn]

theorem negate_ofRatio (num den : Nat) : (ofRatio false num den).negate = ofRatio true num den := by
  obtain ⟨n, hn, hbits⟩ := exists_ofSignedBits num den
  rw [hbits, hbits, negate, isNegative_ofSignedBits false hn, toNat_ofSignedBits false hn,
    if_neg Bool.false_ne_true, Nat.mod_eq_of_lt hn]
  rfl

/-! ## Whole numbers and powers of ten -/

theorem ofInt_natCast (n : Nat) : ofInt n = ofRatio false n 1 := by
  rw [ofInt, Int.natAbs_natCast]
  congr 1

theorem ratio_eq_of_abs {x : Double} {n : Nat} (h : x.abs = n) : x.ratio.1 = n * x.ratio.2 := by
  have hdiv := ratio_div x
  rw [h, div_eq_iff (Nat.cast_ne_zero.mpr (Nat.ne_of_gt x.ratio_den_pos))] at hdiv
  exact_mod_cast hdiv

/-- No whole number of 64 bits is near to overflow. -/
theorem cast_lt_overflow {n : Nat} (h : n < 2 ^ 64) : (n : ℚ) < overflow := by
  have hcast : (n : ℚ) < 2 ^ (64 : Int) := by exact_mod_cast h
  have hpow : (2 : ℚ) ^ (12 : Int) ≤ 2 ^ (971 : Int) :=
    zpow_le_zpow_right₀ (by norm_num) (by norm_num)
  calc (n : ℚ) < 2 ^ (64 : Int) := hcast
    _ ≤ (2 ^ (53 : Int) - 1 / 2) * 2 ^ (12 : Int) := by norm_num
    _ ≤ (2 ^ (53 : Int) - 1 / 2) * 2 ^ (971 : Int) :=
        mul_le_mul_of_nonneg_left hpow (by norm_num)

/-- A whole number below `2^53` is a double. -/
theorem abs_ofInt {n : Nat} (h : n < 2 ^ 53) : (ofInt n).abs = n := by
  rw [ofInt_natCast]
  rcases Nat.eq_zero_or_pos n with rfl | hpos
  · rw [ofRatio, if_pos rfl]
    have hzero : (zero false).magnitude.1 = 0 := by decide
    rw [abs, hzero, Nat.cast_zero, zero_mul]
  · have hlt : (n : ℚ) / (1 : Nat) < 2 ^ (53 : Int) := by
      rw [Nat.cast_one, div_one]
      exact_mod_cast h
    have hoverflow : (n : ℚ) / (1 : Nat) < overflow := by
      rw [Nat.cast_one, div_one]
      exact cast_lt_overflow (Nat.lt_trans h (by norm_num))
    -- the last place is one at most, so every significand is whole
    have hplace : lastPlace n 1 ≤ 0 := by
      by_contra hgt
      have hlow := lastPlace_lower hpos Nat.one_pos (by omega)
      have hpow : (2 : ℚ) ^ (53 : Int) ≤ 2 ^ (52 : Int) * 2 ^ lastPlace n 1 := by
        rw [← zpow_add₀ (by norm_num)]
        exact zpow_le_zpow_right₀ (by norm_num) (by omega)
      linarith
    have hround : ∀ m, roundDiv m 1 = m := by
      intro m
      rw [roundDiv, Nat.div_one, Nat.mod_one, if_pos (by decide)]
    obtain ⟨k, hk⟩ := Int.eq_ofNat_of_zero_le (show 0 ≤ -lastPlace n 1 by omega)
    rw [(ofRatio_spec hpos Nat.one_pos hoverflow false).2, Int.toNat_of_nonpos hplace,
      show Nat.pow 2 0 = 1 from rfl, Nat.mul_one, hround, hk, Int.toNat_natCast,
      show lastPlace n 1 = -(k : Int) by omega]
    push_cast [Nat.pow_eq]
    rw [zpow_neg, zpow_natCast, mul_assoc, mul_inv_cancel₀ (by positivity), mul_one]

/-- The powers of ten up to the twenty-second are doubles. -/
theorem ratio_pow_ten (k : Nat) (h : k ≤ 22) :
    (ofDecimal false 1 k).ratio.1 = 10 ^ k * (ofDecimal false 1 k).ratio.2 ∧
      (ofDecimal false 1 k).isNegative = false := by
  have hall : ∀ k : Fin 23,
      (ofDecimal false 1 (k.val : Int)).ratio.1 =
          10 ^ k.val * (ofDecimal false 1 (k.val : Int)).ratio.2 ∧
        (ofDecimal false 1 (k.val : Int)).isNegative = false := by decide
  exact hall ⟨k, Nat.lt_succ_of_le h⟩

/-- The quotient of two such doubles is the rounded quotient. -/
theorem div_ofInt_pow {n k : Nat} (hn : n < 2 ^ 53) (hk : k ≤ 22) :
    (ofInt n).div (ofDecimal false 1 k) = ofRatio false n (10 ^ k) := by
  have hratio := ratio_eq_of_abs (abs_ofInt hn)
  obtain ⟨hpow, hsign⟩ := ratio_pow_ten k hk
  have hpos : 0 < (ofInt n).ratio.2 * (ofDecimal false 1 k).ratio.1 := by
    rw [hpow]
    exact Nat.mul_pos (ratio_den_pos _) (Nat.mul_pos (Nat.pow_pos (by decide)) (ratio_den_pos _))
  have hnegative : (ofInt n).isNegative = false := by
    rw [ofInt_natCast, isNegative_ofRatio]
  show ofRatio ((ofInt n).isNegative != (ofDecimal false 1 k).isNegative)
    ((ofInt n).ratio.1 * (ofDecimal false 1 k).ratio.2)
    ((ofInt n).ratio.2 * (ofDecimal false 1 k).ratio.1) = _
  rw [hsign, hnegative]
  refine ofRatio_congr false hpos (Nat.pow_pos (by decide)) ?_
  rw [hratio, hpow]
  ring

end Polyshell.Double
