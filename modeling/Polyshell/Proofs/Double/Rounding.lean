/-
  How far rounding goes.

  A finite double denotes the rational number `abs` (its sign apart).  The rounding of a positive
  quotient is a whole number `m ≤ 2^53` of last places (`lastPlace_upper`), and at least `2^52` of
  them unless the quotient is among the subnormal numbers (`lastPlace_lower`).  So its bit pattern
  decodes to the number `m · 2^q` that it was made from (`abs_ofSignedBits`), and two facts follow
  for every operation that rounds once:

  * below `overflow` the result is finite (`isFinite_ofRatio`);
  * from one up, it exceeds the exact quotient by no more than one part in `2^53`
    (`abs_ofRatio_le`).
-/
import Polyshell.Double
import Mathlib.Data.Rat.Cast.Order
import Mathlib.Algebra.Order.Field.Power
import Mathlib.Tactic.Linarith
import Mathlib.Tactic.Positivity
import Mathlib.Tactic.FieldSimp
import Mathlib.Tactic.Ring
import Mathlib.Tactic.NormNum

namespace Polyshell.Double

/-! ## Values as rational numbers -/

/-- A quotient whose sides are scaled by a power of `c`, whichever sign its exponent has. -/
theorem scaled_div {c : Nat} (hc : c ≠ 0) (a b : Nat) (k : Int) :
    ((a * Nat.pow c (-k).toNat : Nat) : ℚ) / (b * Nat.pow c k.toNat : Nat) =
      a / b * (c : ℚ) ^ (-k) := by
  have hc' : (c : ℚ) ≠ 0 := Nat.cast_ne_zero.mpr hc
  rcases Int.le_total 0 k with hk | hk
  · obtain ⟨n, rfl⟩ := Int.eq_ofNat_of_zero_le hk
    rw [Int.toNat_of_nonpos (by omega), Int.toNat_natCast, zpow_neg, zpow_natCast]
    push_cast [Nat.pow_eq]
    rw [pow_zero, mul_one, div_mul_eq_div_div, div_eq_mul_inv]
  · obtain ⟨n, hn⟩ := Int.eq_ofNat_of_zero_le (show 0 ≤ -k by omega)
    rw [hn, Int.toNat_of_nonpos hk, Int.toNat_natCast, zpow_natCast]
    push_cast [Nat.pow_eq]
    rw [pow_zero, mul_one, mul_div_right_comm]

/-- The absolute value of a finite double. -/
def abs (x : Double) : ℚ := x.magnitude.1 * 2 ^ x.magnitude.2

theorem ratio_div (x : Double) : (x.ratio.1 : ℚ) / x.ratio.2 = x.abs := by
  have h := scaled_div (c := 2) (by decide) x.magnitude.1 1 (-x.magnitude.2)
  rw [neg_neg, Nat.one_mul, Nat.cast_one, div_one] at h
  exact h

theorem ratio_den_pos (x : Double) : 0 < x.ratio.2 := Nat.pow_pos (by decide)

theorem abs_nonneg (x : Double) : 0 ≤ x.abs :=
  mul_nonneg (Nat.cast_nonneg _) (zpow_nonneg (by norm_num) _)

/-! ## Whole quotients -/

section Quotient

variable (num : Nat) {den : Nat} (hden : 0 < den)

/-- A rounded quotient is not below the quotient cut off. -/
theorem le_roundDiv (den : Nat) : num / den ≤ roundDiv num den := by
  rw [roundDiv]
  split
  · exact Nat.le_refl _
  · split <;> omega

include hden

/-- A rounded quotient is at most half a unit above the exact one. -/
theorem roundDiv_le : (roundDiv num den : ℚ) ≤ num / den + 1 / 2 := by
  have hnat : 2 * (den * roundDiv num den) ≤ 2 * num + den := by
    have hdiv := Nat.div_add_mod num den
    rw [roundDiv]
    split
    · omega
    · split
      · rw [Nat.mul_add, Nat.mul_one]
        omega
      · -- a tie adds the parity of the quotient, one at most
        have htie : num / den % 2 ≤ 1 := by omega
        have hmul : den * (num / den % 2) ≤ den * 1 := Nat.mul_le_mul_left den htie
        rw [Nat.mul_add]
        omega
  have hpos : (0 : ℚ) < den := Nat.cast_pos.mpr hden
  have hcast : (2 : ℚ) * (den * roundDiv num den) ≤ 2 * num + den := by exact_mod_cast hnat
  rw [← sub_nonneg]
  have heq : (num : ℚ) / den + 1 / 2 - roundDiv num den =
      (2 * num + den - 2 * (den * roundDiv num den)) / (2 * den) := by
    field_simp
  rw [heq]
  exact div_nonneg (by linarith) (by linarith)

theorem div_lt_cast_iff (n : Nat) : num / den < n ↔ (num : ℚ) / den < n := by
  rw [Nat.div_lt_iff_lt_mul hden, div_lt_iff₀ (Nat.cast_pos.mpr hden), ← Nat.cast_mul,
    Nat.cast_lt]

end Quotient

/-! ## The last place -/

theorem neg_le_lastPlace (num den : Nat) : -1074 ≤ lastPlace num den := by
  rw [lastPlace]
  split <;> omega

section LastPlace

variable {num den : Nat} (hnum : 0 < num) (hden : 0 < den)
include hnum hden

/-- The logarithms place the quotient between two powers of two. -/
theorem log2_bounds :
    (2 : ℚ) ^ ((Nat.log2 num : Int) - Nat.log2 den - 1) < num / den ∧
      (num : ℚ) / den < 2 ^ ((Nat.log2 num : Int) - Nat.log2 den + 1) := by
  have hlow : ∀ n : Nat, 0 < n → (2 : ℚ) ^ Nat.log2 n ≤ n := fun n hn => by
    exact_mod_cast Nat.log2_self_le (Nat.pos_iff_ne_zero.mp hn)
  have hhigh : ∀ n : Nat, (n : ℚ) < 2 ^ (Nat.log2 n + 1) := fun n => by
    exact_mod_cast Nat.lt_log2_self
  have hpos : (0 : ℚ) < den := Nat.cast_pos.mpr hden
  refine ⟨?_, ?_⟩
  · rw [lt_div_iff₀ hpos]
    calc (2 : ℚ) ^ ((Nat.log2 num : Int) - Nat.log2 den - 1) * den
        < 2 ^ ((Nat.log2 num : Int) - Nat.log2 den - 1) * 2 ^ (Nat.log2 den + 1) :=
          mul_lt_mul_of_pos_left (hhigh den) (zpow_pos (by norm_num) _)
      _ = 2 ^ Nat.log2 num := by
          rw [← zpow_natCast, ← zpow_add₀ (by norm_num), ← zpow_natCast]
          congr 1
          push_cast
          ring
      _ ≤ num := hlow num hnum
  · rw [div_lt_iff₀ hpos]
    calc (num : ℚ) < 2 ^ (Nat.log2 num + 1) := hhigh num
      _ = 2 ^ ((Nat.log2 num : Int) - Nat.log2 den + 1) * 2 ^ Nat.log2 den := by
          rw [← zpow_natCast, ← zpow_natCast, ← zpow_add₀ (by norm_num)]
          congr 1
          push_cast
          ring
      _ ≤ 2 ^ ((Nat.log2 num : Int) - Nat.log2 den + 1) * den :=
          mul_le_mul_of_nonneg_left (hlow den hden) (zpow_nonneg (by norm_num) _)

omit hnum in
/-- The test that `lastPlace` makes, on the exact quotient. -/
theorem fits_iff (q : Int) :
    num * Nat.pow 2 (-q).toNat / (den * Nat.pow 2 q.toNat) < Nat.pow 2 53 ↔
      (num : ℚ) / den < 2 ^ (53 : Int) * 2 ^ q := by
  have hscaled := scaled_div (c := 2) (by decide) num den q
  have hpow : (0 : ℚ) < 2 ^ q := zpow_pos (by norm_num) _
  have hpos : 0 < den * Nat.pow 2 q.toNat := Nat.mul_pos hden (Nat.pow_pos (by decide))
  rw [div_lt_cast_iff _ hpos, hscaled, Nat.cast_ofNat,
    zpow_neg, ← div_eq_mul_inv, div_lt_iff₀ hpow]
  norm_num [Nat.pow_eq]

/-- At the last place the significand has no more than fifty-three bits. -/
theorem lastPlace_upper : (num : ℚ) / den < 2 ^ (53 : Int) * 2 ^ lastPlace num den := by
  rw [lastPlace]
  split
  · rename_i h
    exact (fits_iff hden _).mp h
  · refine (log2_bounds hnum hden).2.trans_le ?_
    rw [← zpow_add₀ (by norm_num)]
    exact zpow_le_zpow_right₀ (by norm_num) (by omega)

/-- And no fewer, unless the last place is that of the subnormal numbers. -/
theorem lastPlace_lower (h : lastPlace num den ≠ -1074) :
    2 ^ (52 : Int) * 2 ^ lastPlace num den ≤ (num : ℚ) / den := by
  rw [lastPlace] at h ⊢
  split
  · rename_i hfits
    rw [if_pos hfits] at h
    rw [← zpow_add₀ (by norm_num)]
    exact (zpow_le_zpow_right₀ (by norm_num) (by omega)).trans (log2_bounds hnum hden).1.le
  · rename_i hfits
    rw [fits_iff hden, not_lt] at hfits
    refine le_of_eq_of_le ?_ hfits
    rw [← zpow_add₀ (by norm_num), ← zpow_add₀ (by norm_num)]
    congr 1
    ring

/-- The significand has its fifty-three bits, unless the last place is that of the subnormal numbers. -/
theorem le_significand (h : lastPlace num den ≠ -1074) :
    Nat.pow 2 52 ≤ roundDiv (num * Nat.pow 2 (-lastPlace num den).toNat)
      (den * Nat.pow 2 (lastPlace num den).toNat) := by
  refine Nat.le_trans ?_ (le_roundDiv _ _)
  have hden' : 0 < den * Nat.pow 2 (lastPlace num den).toNat :=
    Nat.mul_pos hden (Nat.pow_pos (by decide))
  have hlow := lastPlace_lower hnum hden h
  have hscaled := scaled_div (c := 2) (by decide) num den (lastPlace num den)
  have hpow : (0 : ℚ) < 2 ^ lastPlace num den := zpow_pos (by norm_num) _
  rw [Nat.cast_ofNat, zpow_neg, ← div_eq_mul_inv] at hscaled
  rw [← le_div_iff₀ hpow, ← hscaled, le_div_iff₀ (Nat.cast_pos.mpr hden')] at hlow
  rw [Nat.le_div_iff_mul_le hden', Nat.pow_eq]
  exact_mod_cast hlow

end LastPlace

/-! ## Bit patterns -/

theorem toNat_ofSignedBits (negative : Bool) {n : Nat} (h : n < Nat.pow 2 63) :
    (ofSignedBits negative n).bits.toNat = if negative then n + Nat.pow 2 63 else n := by
  have hsum : n + Nat.pow 2 63 < 2 ^ 64 := by
    have htwo : (2 : Nat) ^ 64 = Nat.pow 2 63 + Nat.pow 2 63 := by decide
    omega
  rw [ofSignedBits, UInt64.toNat_ofNat']
  cases negative with
  | true => rw [if_pos rfl, Nat.mod_eq_of_lt hsum]
  | false => rw [if_neg Bool.false_ne_true, Nat.mod_eq_of_lt (by omega)]

/-- The sign does not reach into the exponent and the fraction. -/
theorem bits_ofSignedBits (negative : Bool) {n : Nat} (h : n < Nat.pow 2 63) :
    (ofSignedBits negative n).exponentBits = n / Nat.pow 2 52 ∧
      (ofSignedBits negative n).fractionBits = n % Nat.pow 2 52 := by
  rw [exponentBits, fractionBits, toNat_ofSignedBits negative h]
  simp only [Nat.pow_eq, Nat.reducePow] at h ⊢
  cases negative with
  | true =>
    rw [if_pos rfl]
    omega
  | false =>
    rw [if_neg Bool.false_ne_true]
    omega

/-- The pattern put together from `m` last places at `q` is the number `m · 2^q`. -/
theorem abs_ofSignedBits (negative : Bool) {m : Nat} {q : Int} (hq : -1074 ≤ q)
    (hm : m ≤ Nat.pow 2 53) (hlow : q ≠ -1074 → Nat.pow 2 52 ≤ m)
    (hn : (q + 1074).toNat * Nat.pow 2 52 + m < 2047 * Nat.pow 2 52) :
    (ofSignedBits negative ((q + 1074).toNat * Nat.pow 2 52 + m)).isFinite = true ∧
      (ofSignedBits negative ((q + 1074).toNat * Nat.pow 2 52 + m)).abs = m * 2 ^ q := by
  have hbits := bits_ofSignedBits negative (n := (q + 1074).toNat * Nat.pow 2 52 + m)
    (hn.trans (by decide))
  rw [isFinite, abs, magnitude, hbits.1, hbits.2]
  simp only [Nat.pow_eq, Nat.reducePow, bne_iff_ne, ne_eq] at hm hlow hn ⊢
  refine ⟨by omega, ?_⟩
  obtain ⟨k, hk⟩ := Int.eq_ofNat_of_zero_le (show 0 ≤ q + 1074 by omega)
  obtain rfl : q = k - 1074 := by omega
  rw [show ((k : Int) - 1074 + 1074).toNat = k by omega] at hn ⊢
  rcases Nat.lt_or_ge m 4503599627370496 with hsub | hnormal
  · -- subnormal: no exponent bit is set
    obtain rfl : k = 0 := by omega
    rw [if_pos (by omega), show (0 * 4503599627370496 + m) % 4503599627370496 = m by omega]
    rfl
  rw [if_neg (by omega)]
  rcases Nat.lt_or_ge m 9007199254740992 with hfull | hcarry
  · rw [show (k * 4503599627370496 + m) % 4503599627370496 + 4503599627370496 = m by omega,
      show (((k * 4503599627370496 + m) / 4503599627370496 : Nat) : Int) - 1075 = k - 1074 by omega]
  · -- a significand that was rounded up carries into the exponent
    obtain rfl : m = 9007199254740992 := by omega
    rw [show (k * 4503599627370496 + 9007199254740992) % 4503599627370496 + 4503599627370496 =
        4503599627370496 by omega,
      show (((k * 4503599627370496 + 9007199254740992) / 4503599627370496 : Nat) : Int) - 1075 =
        (k - 1074) + 1 by omega, zpow_add₀ (by norm_num)]
    push_cast
    ring

/-! ## One rounding -/

/-- Where rounding turns to infinity: halfway behind the largest finite double. -/
def overflow : ℚ := (2 ^ (53 : Int) - 1 / 2) * 2 ^ (971 : Int)

/-- The power of two behind all of them, in decimal. -/
theorem two_pow_le_ten_pow : 2 ^ 1024 ≤ 2 * 10 ^ 308 := by
  calc 2 ^ 1024 = 2 * (2 ^ 93) ^ 11 := by rw [← pow_mul, ← pow_succ']
    _ ≤ 2 * (10 ^ 28) ^ 11 := Nat.mul_le_mul_left 2 (Nat.pow_le_pow_left (by norm_num) 11)
    _ = 2 * 10 ^ 308 := by rw [← pow_mul]

/-- There is room for one more last place below the next power of ten. -/
theorem overflow_succ_lt : overflow + 2 ^ (971 : Int) < (10 : ℚ) ^ (309 : Int) := by
  have hnat : (2 ^ 53 + 1) * 2 ^ 971 < 10 ^ 309 := by
    calc (2 ^ 53 + 1) * 2 ^ 971 ≤ 2 ^ 54 * 2 ^ 971 := Nat.mul_le_mul_right _ (by norm_num)
      _ = 2 * 2 ^ 1024 := by rw [← pow_add, ← pow_succ']
      _ ≤ 2 * (2 * 10 ^ 308) := Nat.mul_le_mul_left 2 two_pow_le_ten_pow
      _ < 10 * 10 ^ 308 := by
        rw [← mul_assoc]
        exact Nat.mul_lt_mul_of_pos_right (by norm_num) (by positivity)
      _ = 10 ^ 309 := by rw [← pow_succ']
  calc overflow + 2 ^ (971 : Int) ≤ (2 ^ (53 : Int) + 1) * 2 ^ (971 : Int) := by
        rw [overflow, ← add_one_mul]
        exact mul_le_mul_of_nonneg_right (by linarith) (by positivity)
    _ < 10 ^ (309 : Int) := by exact_mod_cast hnat

theorem overflow_lt : overflow < (10 : ℚ) ^ (309 : Int) :=
  (lt_add_of_pos_right overflow (by positivity)).trans overflow_succ_lt

theorem isFinite_zero (negative : Bool) : (zero negative).isFinite = true := by
  cases negative <;> decide

theorem isInfinite_of_isFinite {x : Double} (h : x.isFinite = true) : x.isInfinite = false := by
  simp only [isFinite, bne_iff_ne, ne_eq] at h
  simp [isInfinite, h]

section OfRatio

variable {num den : Nat} (hnum : 0 < num) (hden : 0 < den) (h : (num : ℚ) / den < overflow)
include hnum hden h

/-- Below `overflow` the last place is one of a finite double. -/
theorem lastPlace_le : lastPlace num den ≤ 971 := by
  by_contra hq
  have hlow := lastPlace_lower hnum hden (by omega)
  have hpow : (2 : ℚ) ^ (972 : Int) ≤ 2 ^ lastPlace num den :=
    zpow_le_zpow_right₀ (by norm_num) (by omega)
  have hbound : overflow ≤ 2 ^ (52 : Int) * 2 ^ (972 : Int) := by
    rw [overflow, show (972 : Int) = 971 + 1 from rfl, zpow_add₀ (by norm_num)]
    have hpos : (0 : ℚ) < 2 ^ (971 : Int) := zpow_pos (by norm_num) _
    have heq : (2 : ℚ) ^ (52 : Int) * (2 ^ (971 : Int) * 2 ^ (1 : Int)) =
        2 ^ (53 : Int) * 2 ^ (971 : Int) := by
      rw [show (53 : Int) = 52 + 1 from rfl, zpow_add₀ (by norm_num)]
      ring
    rw [heq]
    exact mul_le_mul_of_nonneg_right (by linarith) hpos.le
  have hmul : (2 : ℚ) ^ (52 : Int) * 2 ^ (972 : Int) ≤ 2 ^ (52 : Int) * 2 ^ lastPlace num den :=
    mul_le_mul_of_nonneg_left hpow (by positivity)
  linarith

/-- The significand of the rounded quotient, as `ofRatio` computes it: its size, and that it is
    half a last place off at most. -/
theorem significand_spec {m : Nat} (hm : m = roundDiv (num * Nat.pow 2 (-lastPlace num den).toNat)
      (den * Nat.pow 2 (lastPlace num den).toNat)) :
    m ≤ Nat.pow 2 53 ∧ (lastPlace num den ≠ -1074 → Nat.pow 2 52 ≤ m) ∧
      (lastPlace num den = 971 → m < Nat.pow 2 53) ∧
      (m : ℚ) ≤ num / den * 2 ^ (-lastPlace num den) + 1 / 2 := by
  have hden' : 0 < den * Nat.pow 2 (lastPlace num den).toNat :=
    Nat.mul_pos hden (Nat.pow_pos (by decide))
  have hscaled := scaled_div (c := 2) (by decide) num den (lastPlace num den)
  have hround := roundDiv_le (num * Nat.pow 2 (-lastPlace num den).toNat) hden'
  rw [← hm, hscaled, Nat.cast_ofNat] at hround
  -- every bound on the quotient is one on the number of last places in it
  have hpow : (0 : ℚ) < 2 ^ lastPlace num den := zpow_pos (by norm_num) _
  have hsplit : (num : ℚ) / den = num / den * 2 ^ (-lastPlace num den) * 2 ^ lastPlace num den := by
    rw [mul_assoc, ← zpow_add₀ (by norm_num), neg_add_cancel, zpow_zero, mul_one]
  have htwo : (2 : ℚ) ^ (53 : Int) = (Nat.pow 2 53 : Nat) := by norm_num [Nat.pow_eq]
  refine ⟨?_, fun hne => hm ▸ le_significand hnum hden hne, fun hbig => ?_, hround⟩
  · have hup := lastPlace_upper hnum hden
    rw [hsplit] at hup
    have ht := lt_of_mul_lt_mul_right hup hpow.le
    rw [htwo] at ht
    have hlt : (m : ℚ) < (Nat.pow 2 53 : Nat) + 1 := by linarith
    exact Nat.lt_succ_iff.mp (by exact_mod_cast hlt)
  · rw [hsplit, overflow, ← hbig] at h
    have ht := lt_of_mul_lt_mul_right h hpow.le
    rw [htwo] at ht
    have hlt : (m : ℚ) < (Nat.pow 2 53 : Nat) := by linarith
    exact_mod_cast hlt

/-- The rounded quotient is finite, and is the number that its significand says. -/
theorem ofRatio_spec (negative : Bool) : (ofRatio negative num den).isFinite = true ∧
    (ofRatio negative num den).abs =
      roundDiv (num * Nat.pow 2 (-lastPlace num den).toNat)
        (den * Nat.pow 2 (lastPlace num den).toNat) * 2 ^ lastPlace num den := by
  have hq := neg_le_lastPlace num den
  have hq' := lastPlace_le hnum hden h
  obtain ⟨hm, hlow, htop, -⟩ := significand_spec hnum hden h rfl
  generalize hme : roundDiv (num * Nat.pow 2 (-lastPlace num den).toNat)
    (den * Nat.pow 2 (lastPlace num den).toNat) = m at *
  have hn : (lastPlace num den + 1074).toNat * Nat.pow 2 52 + m < 2047 * Nat.pow 2 52 := by
    simp only [Nat.pow_eq, Nat.reducePow] at hm htop ⊢
    omega
  rw [ofRatio, if_neg (by omega)]
  simp only [hme]
  rw [if_neg (by omega)]
  exact abs_ofSignedBits negative hq hm hlow hn

/-- From one up, rounding adds no more than one part in `2^53`. -/
theorem abs_ofRatio_le (negative : Bool) (hone : (1 : ℚ) ≤ num / den) :
    (ofRatio negative num den).abs ≤ num / den * (1 + 1 / 2 ^ (53 : Int)) := by
  have hup := lastPlace_upper hnum hden
  -- a quotient from one up is normal, so it has at least `2^52` last places
  have hne : lastPlace num den ≠ -1074 := by
    intro he
    rw [he] at hup
    have hsmall : (2 : ℚ) ^ (53 : Int) * 2 ^ (-1074 : Int) ≤ 1 := by
      rw [← zpow_add₀ (by norm_num)]
      exact zpow_le_one_of_nonpos₀ (by norm_num) (by norm_num)
    linarith
  have hlow := lastPlace_lower hnum hden hne
  obtain ⟨-, -, -, hround⟩ := significand_spec hnum hden h rfl
  rw [(ofRatio_spec hnum hden h negative).2]
  generalize lastPlace num den = q at *
  have hpow : (0 : ℚ) < 2 ^ q := zpow_pos (by norm_num) _
  calc _ ≤ ((num : ℚ) / den * 2 ^ (-q) + 1 / 2) * 2 ^ q :=
        mul_le_mul_of_nonneg_right hround hpow.le
    _ = num / den + 2 ^ q / 2 := by
        rw [add_mul, mul_assoc, ← zpow_add₀ (by norm_num), neg_add_cancel, zpow_zero]
        ring
    _ ≤ num / den * (1 + 1 / 2 ^ (53 : Int)) := by
        have hhalf : (2 : ℚ) ^ q / 2 = 2 ^ (52 : Int) * 2 ^ q * (1 / 2 ^ (53 : Int)) := by
          norm_num
          ring
        rw [mul_add, mul_one, hhalf]
        exact add_le_add_right (mul_le_mul_of_nonneg_right hlow (by positivity)) _

end OfRatio

/-- Below `overflow` the result of a rounding is finite. -/
theorem isFinite_ofRatio (negative : Bool) {num den : Nat} (hden : 0 < den)
    (h : (num : ℚ) / den < overflow) : (ofRatio negative num den).isFinite = true := by
  rcases Nat.eq_zero_or_pos num with rfl | hnum
  · rw [ofRatio, if_pos rfl]
    exact isFinite_zero negative
  · exact (ofRatio_spec hnum hden h negative).1

/-! ## Products -/

theorem mul_eq (x y : Double) : x.mul y = ofRatio (x.isNegative != y.isNegative)
    (x.ratio.1 * y.ratio.1) (x.ratio.2 * y.ratio.2) := rfl

theorem isFinite_mul {x y : Double} (h : x.abs * y.abs < overflow) : (x.mul y).isFinite = true := by
  rw [mul_eq]
  refine isFinite_ofRatio _ (Nat.mul_pos x.ratio_den_pos y.ratio_den_pos) ?_
  rw [Nat.cast_mul, Nat.cast_mul, mul_div_mul_comm, ratio_div, ratio_div]
  exact h

end Polyshell.Double
