/-
  Where rounding turns to infinity, and whole numbers beyond the words of 64 bits.

  1. **Overflow** — a rounded quotient is finite exactly if the quotient lies below `overflow`
     (`isFinite_ofRatio_iff`).  At the largest last place that a finite double has, a quotient from
     `overflow` up is a tie or more, and a tie goes to the even neighbour, which is the power of two that
     does not fit any more (`le_roundDiv_of_half`).

  2. **Decimals** — the same limit holds for the digits of a whole number, however many they are
     (`isFinite_ofDecimal_iff`): those that are too many to be looked at denote a number beyond it.

  3. **Whole numbers** — what a large whole number is rounded to is a whole number again, and not below
     `2^63` if the number was not (`exists_abs_ofRatio`).  So a word of 64 bits holds none of them, and
     what a clamped conversion gives is the last word on that side (`clampToInt_of_large`).
-/
import Polyshell.Proofs.Decimal.Digits
import Polyshell.Proofs.Double.Exact

namespace Polyshell.Double

/-! ## Overflow -/

/-- A quotient that is half a unit below an even number, or less, is rounded up to it. -/
theorem le_roundDiv_of_half {num den k : Nat} (hden : 0 < den) (heven : k % 2 = 0)
    (h : 2 * (k * den) ≤ 2 * num + den) : k ≤ roundDiv num den := by
  rcases Nat.lt_or_ge (num / den) k with hlt | hge
  · have hdiv := Nat.div_add_mod num den
    have hmod := Nat.mod_lt num hden
    -- the quotient cut off is the odd number in front of `k`
    have hprev : num / den + 1 = k := by
      by_contra hne
      have hmul : den * (num / den + 2) ≤ den * k := Nat.mul_le_mul_left den (by omega)
      rw [Nat.mul_add, Nat.mul_comm den k] at hmul
      omega
    have hhalf : den ≤ 2 * (num % den) := by
      rw [← hprev, Nat.add_mul, Nat.mul_comm (num / den)] at h
      omega
    rw [roundDiv, if_neg (by omega)]
    split <;> omega
  · exact Nat.le_trans hge (le_roundDiv num den)

theorem not_isFinite_infinity (negative : Bool) : (infinity negative).isFinite = false := by
  cases negative <;> decide

section OfRatio

variable {num den : Nat} (hnum : 0 < num) (hden : 0 < den)
include hnum hden

/-- From `overflow` up the last place is at least that of the largest finite doubles. -/
theorem le_lastPlace (h : overflow ≤ (num : ℚ) / den) : 971 ≤ lastPlace num den := by
  by_contra hlt
  have hup := lastPlace_upper hnum hden
  have hpow : (2 : ℚ) ^ lastPlace num den ≤ 2 ^ (970 : Int) :=
    zpow_le_zpow_right₀ (by norm_num) (by omega)
  have hmul : (2 : ℚ) ^ (53 : Int) * 2 ^ lastPlace num den ≤ 2 ^ (53 : Int) * 2 ^ (970 : Int) :=
    mul_le_mul_of_nonneg_left hpow (by positivity)
  have hbound : (2 : ℚ) ^ (53 : Int) * 2 ^ (970 : Int) ≤ overflow := by
    have hpos : (0 : ℚ) ≤ 2 ^ (970 : Int) := zpow_nonneg (by norm_num) _
    rw [overflow, show (971 : Int) = 1 + 970 from rfl, zpow_add₀ (by norm_num), ← mul_assoc]
    exact mul_le_mul_of_nonneg_right (by norm_num) hpos
  linarith

/-- Such a quotient rounds to infinity. -/
theorem ofRatio_of_overflow (h : overflow ≤ (num : ℚ) / den) (negative : Bool) :
    ofRatio negative num den = infinity negative := by
  have hq := le_lastPlace hnum hden h
  have hlow := le_significand hnum hden (by omega)
  -- at the largest last place the significand is rounded up to a power of two
  have htop : lastPlace num den = 971 →
      Nat.pow 2 53 ≤ roundDiv (num * Nat.pow 2 (-lastPlace num den).toNat)
        (den * Nat.pow 2 (lastPlace num den).toNat) := by
    intro hlast
    have hscaled := scaled_div (c := 2) (by decide) num den (lastPlace num den)
    have hden' : 0 < den * Nat.pow 2 (lastPlace num den).toNat :=
      Nat.mul_pos hden (Nat.pow_pos (by decide))
    have hpow : (0 : ℚ) < 2 ^ lastPlace num den := zpow_pos (by norm_num) _
    rw [overflow, ← hlast, ← le_div_iff₀ hpow] at h
    rw [Nat.cast_ofNat, zpow_neg, ← div_eq_mul_inv] at hscaled
    rw [← hscaled, le_div_iff₀ (Nat.cast_pos.mpr hden')] at h
    refine le_roundDiv_of_half hden' (by decide) ?_
    generalize num * Nat.pow 2 (-lastPlace num den).toNat = a at h
    generalize den * Nat.pow 2 (lastPlace num den).toNat = b at h
    have hcast : (2 : ℚ) * ((Nat.pow 2 53 : Nat) * b) ≤ 2 * a + b := by
      rw [show ((Nat.pow 2 53 : Nat) : ℚ) = 2 ^ (53 : Int) by norm_num [Nat.pow_eq]]
      linarith
    exact_mod_cast hcast
  rw [ofRatio, if_neg (Nat.ne_of_gt hnum)]
  simp only
  generalize roundDiv (num * Nat.pow 2 (-lastPlace num den).toNat)
    (den * Nat.pow 2 (lastPlace num den).toNat) = m at hlow htop
  refine if_pos ?_
  simp only [Nat.pow_eq, Nat.reducePow] at hlow htop ⊢
  omega

end OfRatio

/-- A rounded quotient is finite exactly if the quotient lies below `overflow`. -/
theorem isFinite_ofRatio_iff (negative : Bool) {num den : Nat} (hden : 0 < den) :
    (ofRatio negative num den).isFinite = true ↔ (num : ℚ) / den < overflow := by
  refine ⟨fun hfinite => ?_, isFinite_ofRatio negative hden⟩
  by_contra hlt
  rw [not_lt] at hlt
  rcases Nat.eq_zero_or_pos num with rfl | hnum
  · rw [Nat.cast_zero, zero_div] at hlt
    have hpos : 0 < overflow := mul_pos (by norm_num) (zpow_pos (by norm_num) _)
    exact absurd hlt (not_le.mpr hpos)
  · rw [ofRatio_of_overflow hnum hden hlt, not_isFinite_infinity] at hfinite
    cases hfinite

/-! ## Decimals -/

/-- The limit as a whole number. -/
def overflowNat : Nat := 2 ^ 1024 - 2 ^ 970

theorem overflowNat_eq : overflowNat = (2 ^ 54 - 1) * 2 ^ 970 := by
  rw [overflowNat, Nat.sub_one_mul, ← pow_add]

theorem cast_lt_overflow_iff (n : Nat) : (n : ℚ) < overflow ↔ n < overflowNat := by
  have hcast : overflow = (overflowNat : ℚ) := by
    rw [overflow, overflowNat_eq, show (971 : Int) = 1 + (970 : Nat) from rfl,
      zpow_add₀ (by norm_num), ← mul_assoc, zpow_natCast, Nat.cast_mul, Nat.cast_pow]
    norm_num
  rw [hcast, Nat.cast_lt]

theorem two_pow_le_overflowNat {k : Nat} (h : k ≤ 970) : 2 ^ k ≤ overflowNat := by
  have hroom : 2 ^ 970 * 2 ≤ 2 ^ 1024 := by
    rw [← pow_succ]
    exact pow_le_pow_right₀ (by norm_num) (by norm_num)
  have hle : 2 ^ k ≤ 2 ^ 970 := pow_le_pow_right₀ (by norm_num) h
  rw [overflowNat]
  omega

/-- No number of this many digits is below the limit. -/
theorem overflowNat_le_pow : overflowNat ≤ 10 ^ 311 := by
  calc overflowNat ≤ 2 ^ 1024 := Nat.sub_le _ _
    _ ≤ 2 * 10 ^ 308 := two_pow_le_ten_pow
    _ ≤ 10 ^ 3 * 10 ^ 308 := Nat.mul_le_mul_right _ (by norm_num)
    _ = 10 ^ 311 := by rw [← pow_add]

/-- Digits that denote a number below the limit are the nearest double. -/
theorem ofDecimal_whole (negative : Bool) {n : Nat} (h : n < overflowNat) :
    ofDecimal negative n 0 = ofRatio negative n 1 := by
  rw [ofDecimal]
  by_cases hzero : n = 0
  · rw [if_pos hzero, hzero, ofRatio, if_pos rfl]
  · have hlength := (Decimal.length_digits_le_iff n (show 0 < 311 by decide)).mpr
      (Nat.lt_of_lt_of_le h overflowNat_le_pow)
    simp only [if_neg hzero]
    rw [if_neg (by omega), if_neg (by omega)]
    congr 1
    exact Nat.mul_one n

/-- The digits of a whole number are read as a finite double exactly if it is below the limit. -/
theorem isFinite_ofDecimal_iff (negative : Bool) (n : Nat) :
    (ofDecimal negative n 0).isFinite = true ↔ n < overflowNat := by
  rcases Nat.lt_or_ge n overflowNat with hlt | hge
  · rw [ofDecimal_whole negative hlt, isFinite_ofRatio_iff negative Nat.one_pos, Nat.cast_one, div_one,
      cast_lt_overflow_iff]
  · have hpos : 0 < n :=
      (Nat.two_pow_pos 0).trans_le ((two_pow_le_overflowNat (Nat.zero_le 970)).trans hge)
    have hover : overflow ≤ (n : ℚ) / (1 : Nat) := by
      rw [Nat.cast_one, div_one, ← not_lt, cast_lt_overflow_iff]
      omega
    have hinfinite : ofDecimal negative n 0 = infinity negative := by
      rw [ofDecimal, if_neg (Nat.ne_of_gt hpos)]
      simp only
      split
      · rfl
      · rw [if_neg (by omega)]
        refine Eq.trans ?_ (ofRatio_of_overflow hpos Nat.one_pos hover negative)
        congr 1
        exact Nat.mul_one n
    rw [hinfinite, not_isFinite_infinity]
    simp only [Bool.false_eq_true, false_iff]
    omega

/-! ## Whole numbers -/

/-- From `2^63` up, a whole number is rounded to a whole number that is not below `2^63` either. -/
theorem exists_abs_ofRatio (negative : Bool) {n : Nat} (hlarge : 2 ^ 63 ≤ n) (h : n < overflowNat) :
    ∃ N : Nat, 2 ^ 63 ≤ N ∧ (ofRatio negative n 1).abs = N := by
  have hnum : 0 < n := by omega
  have hone : (n : ℚ) / (1 : Nat) = n := by rw [Nat.cast_one, div_one]
  have hover : (n : ℚ) / (1 : Nat) < overflow := by
    rw [hone, cast_lt_overflow_iff]
    exact h
  -- the last place is no fraction, and `2^52` of it are `2^63` at least
  have hplace : 11 ≤ lastPlace n 1 := by
    by_contra hlt
    have hup := lastPlace_upper hnum Nat.one_pos
    have hpow : (2 : ℚ) ^ (53 : Int) * 2 ^ lastPlace n 1 ≤ 2 ^ (63 : Int) := by
      rw [← zpow_add₀ (by norm_num)]
      exact zpow_le_zpow_right₀ (by norm_num) (by omega)
    have hcast : (2 : ℚ) ^ (63 : Int) ≤ n := by exact_mod_cast hlarge
    rw [hone] at hup
    linarith
  have hlow := le_significand hnum Nat.one_pos (by omega)
  have habs := (ofRatio_spec hnum Nat.one_pos hover negative).2
  generalize roundDiv (n * Nat.pow 2 (-lastPlace n 1).toNat)
    (1 * Nat.pow 2 (lastPlace n 1).toNat) = m at hlow habs
  obtain ⟨k, hk⟩ := Int.eq_ofNat_of_zero_le (show 0 ≤ lastPlace n 1 by omega)
  rw [hk] at habs hplace
  refine ⟨m * 2 ^ k, ?_, ?_⟩
  · calc 2 ^ 63 = Nat.pow 2 52 * 2 ^ 11 := by decide
      _ ≤ m * 2 ^ k := Nat.mul_le_mul hlow (Nat.pow_le_pow_right (by decide) (by omega))
  · rw [habs]
    push_cast
    rw [zpow_natCast]

section Large

variable {x : Double} {N : Nat} (hfinite : x.isFinite = true) (h : x.abs = N)
include hfinite h

/-- A double that is a whole number is converted to it. -/
theorem toInt?_of_abs : x.toInt? = some (if x.isNegative then -(N : Int) else N) := by
  have hratio := ratio_eq_of_abs h
  have hpos := x.ratio_den_pos
  rw [toInt?, if_pos hfinite]
  simp only
  rw [hratio, if_pos (Nat.mul_mod_left N x.ratio.2), Nat.mul_div_cancel N hpos]

/-- A whole number that no word of 64 bits holds is clamped to the last word on its side. -/
theorem clampToInt_of_large (hlarge : 2 ^ 63 ≤ N) :
    x.clampToInt Decimal.minInt64 Decimal.maxInt64 =
      if x.isNegative then Decimal.minInt64 else Decimal.maxInt64 := by
  have hratio := ratio_eq_of_abs h
  have hnan : x.isNaN = false := by
    simp only [isFinite, bne_iff_ne, ne_eq] at hfinite
    simp [isNaN, hfinite]
  rw [clampToInt, hnan, if_neg Bool.false_ne_true, if_pos hfinite]
  simp only
  rw [hratio, Nat.mul_div_cancel N x.ratio_den_pos, Decimal.minInt64, Decimal.maxInt64]
  cases x.isNegative with
  | true =>
    rw [if_pos rfl, if_pos rfl]
    omega
  | false =>
    rw [if_neg Bool.false_ne_true, if_neg Bool.false_ne_true]
    omega

end Large

end Polyshell.Double
