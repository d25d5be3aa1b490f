/-
  Bounds on the shortest decimal of a double.

  Whether the search returns the *right* digits is not asked here, only what a reader of them needs
  to know: there is a digit that is not zero, there are few enough of them for a word of 64 bits,
  and the decimal does not lie above the rounding interval (`shortest_spec`).

  The last comes from the test that every candidate passes (`nearest?_spec`).  The size comes from
  the leading exponent, which places the middle of the interval between two powers of ten
  (`leadingExponent_bounds`): no grid is finer than its seventeenth digit.
-/
import Polyshell.Double.Shortest
import Polyshell.Proofs.Decimal.Digits
import Polyshell.Proofs.Double.Rounding

namespace Polyshell

/-- A number lies between the powers of ten that the count of its digits tells. -/
theorem Decimal.length_digits_bounds {n : Nat} (h : 0 < n) :
    ∃ k, (Decimal.digits n).length = k + 1 ∧ 10 ^ k ≤ n ∧ n < 10 ^ (k + 1) := by
  obtain ⟨k, hk⟩ := Nat.exists_eq_succ_of_ne_zero
    (show (Decimal.digits n).length ≠ 0 by rw [ne_eq, List.length_eq_zero_iff]; exact digits_ne_nil n)
  refine ⟨k, hk, ?_, (length_digits_le_iff n (Nat.succ_pos k)).mp (Nat.le_of_eq hk)⟩
  rcases Nat.eq_zero_or_pos k with rfl | hpos
  · exact h
  · by_contra hlt
    have hle := (length_digits_le_iff n hpos).mpr (by omega)
    omega

namespace Double

/-! ## Intervals -/

namespace Interval

variable {i : Interval} (hden : 0 < i.den)
include hden

section Leading

variable (hmid : 0 < i.mid)
include hmid

/-- The number of digits of the whole part, or of what the number divides into one, tells the
    power of ten. -/
theorem leadingExponent_bounds : (10 : ℚ) ^ i.leadingExponent ≤ i.mid / i.den ∧
    (i.mid : ℚ) / i.den < 10 ^ (i.leadingExponent + 1) := by
  have hden' : (0 : ℚ) < i.den := Nat.cast_pos.mpr hden
  have hmid' : (0 : ℚ) < i.mid := Nat.cast_pos.mpr hmid
  rw [leadingExponent]
  by_cases hone : i.den ≤ i.mid
  · rw [if_pos hone]
    obtain ⟨k, hk, hlow, hhigh⟩ := Decimal.length_digits_bounds (Nat.div_pos hone hden)
    rw [Nat.le_div_iff_mul_le hden] at hlow
    rw [Nat.div_lt_iff_lt_mul hden] at hhigh
    rw [hk, show ((k + 1 : Nat) : Int) - 1 = (k : Nat) by omega,
      show ((k : Nat) : Int) + 1 = (k + 1 : Nat) by omega, zpow_natCast, zpow_natCast,
      le_div_iff₀ hden', div_lt_iff₀ hden']
    exact ⟨by exact_mod_cast hlow, by exact_mod_cast hhigh⟩
  · rw [if_neg hone]
    -- `c` is how often the middle goes into one, rounded up
    generalize hc : (i.den + i.mid - 1) / i.mid = c
    have hup : i.den ≤ c * i.mid := by
      have hlt : i.den + i.mid - 1 < (c + 1) * i.mid :=
        Nat.lt_mul_of_div_lt (hc ▸ Nat.lt_succ_self c) hmid
      rw [Nat.add_mul, Nat.one_mul] at hlt
      omega
    have hdown : c * i.mid ≤ i.den + i.mid - 1 := hc ▸ Nat.div_mul_le_self _ _
    have hc2 : 2 ≤ c := by
      by_contra hlt
      have hmul := Nat.mul_le_mul_right i.mid (show c ≤ 1 by omega)
      omega
    obtain ⟨k, hk, hlow, hhigh⟩ := Decimal.length_digits_bounds (show 0 < c - 1 by omega)
    have hbelow : 10 ^ k * i.mid < i.den := by
      have hmul := Nat.mul_le_mul_right i.mid hlow
      rw [Nat.sub_mul, Nat.one_mul] at hmul
      omega
    have habove : i.den ≤ 10 ^ (k + 1) * i.mid :=
      hup.trans (Nat.mul_le_mul_right i.mid (by omega))
    rw [hk, show -((k + 1 : Nat) : Int) + 1 = -(k : Nat) by omega, zpow_neg, zpow_neg,
      zpow_natCast, zpow_natCast, inv_le_iff_one_le_mul₀ (by positivity), div_mul_eq_mul_div,
      one_le_div₀ hden', lt_inv_comm₀ (by positivity) (by positivity), inv_div,
      lt_div_iff₀ hmid']
    rw [mul_comm] at habove
    exact ⟨by exact_mod_cast habove, by exact_mod_cast hbelow⟩

end Leading

omit hden in
/-- A bound of the interval, in steps of the grid. -/
theorem onGrid_div (a : Nat) (k : Int) : ((a * Nat.pow 10 (-k).toNat : Nat) : ℚ) / (i.onGrid k).2 =
    a / i.den * 10 ^ (-k) :=
  scaled_div (by decide) a i.den k

theorem onGrid_step_pos (k : Int) : 0 < (i.onGrid k).2 :=
  Nat.mul_pos hden (Nat.pow_pos (by decide))

omit hden in
theorem holds_bounds {n : Nat} (h : i.holds n = true) : i.low ≤ n ∧ n ≤ i.high := by
  rw [holds] at h
  split at h
  all_goals
    simp only [Bool.and_eq_true, decide_eq_true_eq] at h
    omega

/-- Steps of the grid up to the upper bound are a decimal up to it. -/
theorem le_high_of_steps {d : Nat} {k : Int}
    (h : d * (i.onGrid k).2 ≤ i.high * Nat.pow 10 (-k).toNat) :
    (d : ℚ) * 10 ^ k ≤ i.high / i.den := by
  have hstep : (0 : ℚ) < (i.onGrid k).2 := Nat.cast_pos.mpr (onGrid_step_pos hden k)
  have hcast : (d : ℚ) * (i.onGrid k).2 ≤ (i.high * Nat.pow 10 (-k).toNat : Nat) := by
    exact_mod_cast h
  rw [← le_div_iff₀ hstep, onGrid_div] at hcast
  calc (d : ℚ) * 10 ^ k ≤ i.high / i.den * 10 ^ (-k) * 10 ^ k :=
        mul_le_mul_of_nonneg_right hcast (by positivity)
    _ = i.high / i.den := by
        rw [mul_assoc, ← zpow_add₀ (by norm_num), neg_add_cancel, zpow_zero, mul_one]

/-- A candidate is positive and not above the interval. -/
theorem nearest?_spec {tie : Tie} {k : Int} {d : Nat} (hlow : 0 < i.low)
    (h : i.nearest? tie k = some d) : 0 < d ∧ (d : ℚ) * 10 ^ k ≤ i.high / i.den := by
  have hholds : (i.onGrid k).1.holds (d * (i.onGrid k).2) = true := by
    unfold nearest? at h
    simp only at h
    generalize (i.onGrid k).1.mid / (i.onGrid k).2 = floor at h
    split at h
    · cases h
    · cases h
      assumption
    · cases h
      assumption
    · split at h
      · cases h
        assumption
      · split at h
        · cases h
          assumption
        · split at h
          · cases h
            assumption
          · cases h
            rcases Nat.mod_two_eq_zero_or_one floor with he | he <;> rw [he]
            · assumption
            · assumption
  -- every branch tests what it returns, so only the test is needed
  obtain ⟨hl, hh⟩ := holds_bounds hholds
  refine ⟨?_, le_high_of_steps hden hh⟩
  rcases Nat.eq_zero_or_pos d with rfl | hd
  · have hpos : 0 < (i.onGrid k).1.low := Nat.mul_pos hlow (Nat.pow_pos (by decide))
    omega
  · exact hd

end Interval

/-! ## The search -/

/-- What is found at a grid of `p - n + 1` digits or finer: a positive decimal not above the
    interval, at a step no finer than the one of the seventeenth digit behind the first. -/
theorem shortestFrom_spec {i : Interval} (hden : 0 < i.den) (hlow : 0 < i.low)
    (horder : i.low ≤ i.mid ∧ i.mid ≤ i.high) (tie : Tie) :
    ∀ fuel n, fuel + n = 18 →
      0 < (shortestFrom i tie i.leadingExponent fuel n).digits ∧
      i.leadingExponent - 17 ≤ (shortestFrom i tie i.leadingExponent fuel n).exponent ∧
      ((shortestFrom i tie i.leadingExponent fuel n).digits : ℚ) *
        10 ^ (shortestFrom i tie i.leadingExponent fuel n).exponent ≤ i.high / i.den := by
  have hmid : 0 < i.mid := by omega
  intro fuel
  induction fuel with
  | zero =>
    intro n hn
    have hstep := Interval.onGrid_step_pos hden (i.leadingExponent - n + 1)
    rw [shortestFrom]
    refine ⟨Nat.div_pos ?_ hstep, by simp only; omega, Interval.le_high_of_steps hden ?_⟩
    · -- the step is no larger than the leading power of ten
      have hle : (1 : ℚ) ≤ i.mid / i.den * 10 ^ (-(i.leadingExponent - n + 1)) := by
        calc (1 : ℚ) ≤ 10 ^ (i.leadingExponent + -(i.leadingExponent - n + 1)) :=
              one_le_zpow₀ (by norm_num) (by omega)
          _ = 10 ^ i.leadingExponent * 10 ^ (-(i.leadingExponent - n + 1)) :=
              zpow_add₀ (by norm_num) _ _
          _ ≤ _ := mul_le_mul_of_nonneg_right (Interval.leadingExponent_bounds hden hmid).1
              (by positivity)
      rw [← Interval.onGrid_div, one_le_div₀ (Nat.cast_pos.mpr hstep)] at hle
      exact_mod_cast hle
    · exact (Nat.div_mul_le_self _ _).trans (Nat.mul_le_mul_right _ horder.2)
  | succ fuel ih =>
    intro n hn
    rw [shortestFrom]
    split
    · rename_i d hd
      obtain ⟨hpos, hle⟩ := Interval.nearest?_spec hden hlow hd
      exact ⟨hpos, by simp only; omega, hle⟩
    · exact ih (n + 1) (by omega)

/-! ## Finite doubles -/

/-- The significand of a finite double has fifty-three bits, and its last place is not above the
    largest one. -/
theorem magnitude_bounds {x : Double} (h : x.isFinite = true) :
    x.magnitude.1 < Nat.pow 2 53 ∧ -1074 ≤ x.magnitude.2 ∧ x.magnitude.2 ≤ 971 := by
  have hexp : x.exponentBits < Nat.pow 2 11 := Nat.mod_lt _ (by decide)
  have hfrac : x.fractionBits < Nat.pow 2 52 := Nat.mod_lt _ (by decide)
  simp only [isFinite, bne_iff_ne, ne_eq] at h
  rw [magnitude]
  simp only [Nat.pow_eq, Nat.reducePow] at hexp hfrac ⊢
  by_cases he : x.exponentBits = 0
  · rw [if_pos he]
    simp only
    omega
  · rw [if_neg he]
    simp only
    omega

theorem magnitude_pos {x : Double} (h : x.isZero = false) : 0 < x.magnitude.1 := by
  rw [magnitude]
  by_cases he : x.exponentBits = 0
  · rw [if_pos he]
    simp only [isZero, he, BEq.rfl, Bool.true_and, beq_eq_false_iff_ne, ne_eq] at h
    simp only
    omega
  · rw [if_neg he]
    exact Nat.add_pos_right _ (Nat.pow_pos (by decide))

/-- The upper end of what rounds to a double: half a last place above it. -/
def roundingHigh (x : Double) : ℚ := (x.magnitude.1 + 1 / 2) * 2 ^ x.magnitude.2

theorem roundingInterval_high (x : Double) :
    (x.roundingInterval.high : ℚ) / x.roundingInterval.den = x.roundingHigh := by
  have h := scaled_div (c := 2) (by decide) (4 * x.magnitude.1 + 2) 4 (-x.magnitude.2)
  rw [neg_neg] at h
  refine Eq.trans h ?_
  rw [roundingHigh]
  push_cast
  ring

/-- **The shortest digits** of a double that is not zero: a positive number of at most nineteen
    digits, and the decimal is not above what rounds to the double. -/
theorem shortest_spec {x : Double} (hzero : x.isZero = false) (tie : Tie) :
    0 < (x.shortest tie).digits ∧ (x.shortest tie).digits < 2 * 10 ^ 18 ∧
      ((x.shortest tie).digits : ℚ) * 10 ^ (x.shortest tie).exponent ≤ x.roundingHigh := by
  have hm := magnitude_pos hzero
  have hscale : 0 < Nat.pow 2 x.magnitude.2.toNat := Nat.pow_pos (by decide)
  have hden : 0 < x.roundingInterval.den := Nat.mul_pos (by decide) (Nat.pow_pos (by decide))
  have hlow : 0 < x.roundingInterval.low := by
    show 0 < (4 * x.magnitude.1 - if _ then 1 else 2) * _
    refine Nat.mul_pos ?_ hscale
    split <;> omega
  have hmid : 0 < x.roundingInterval.mid :=
    Nat.mul_pos (Nat.mul_pos (by decide) hm) hscale
  have horder : x.roundingInterval.low ≤ x.roundingInterval.mid ∧
      x.roundingInterval.mid ≤ x.roundingInterval.high :=
    ⟨Nat.mul_le_mul_right _ (Nat.sub_le _ _), Nat.mul_le_mul_right _ (Nat.le_add_right _ 2)⟩
  have hdouble : x.roundingInterval.high ≤ 2 * x.roundingInterval.mid := by
    show (4 * x.magnitude.1 + 2) * _ ≤ 2 * (4 * x.magnitude.1 * _)
    rw [← Nat.mul_assoc]
    exact Nat.mul_le_mul_right _ (by omega)
  obtain ⟨hpos, hexp, hle⟩ := shortestFrom_spec hden hlow horder tie 17 1 rfl
  have hlead := (Interval.leadingExponent_bounds hden hmid).2
  rw [shortest, hzero, if_neg Bool.false_ne_true]
  simp only
  generalize shortestFrom x.roundingInterval tie x.roundingInterval.leadingExponent 17 1 = s at *
  refine ⟨hpos, ?_, by rwa [roundingInterval_high] at hle⟩
  have hden' : (0 : ℚ) < x.roundingInterval.den := Nat.cast_pos.mpr hden
  generalize x.roundingInterval.leadingExponent = p at *
  -- the upper end is at most twice the middle, and the middle is below the next power of ten
  have hhigh : (x.roundingInterval.high : ℚ) / x.roundingInterval.den < 2 * 10 ^ (p + 1) := by
    have hcast : (x.roundingInterval.high : ℚ) ≤ 2 * x.roundingInterval.mid := by
      exact_mod_cast hdouble
    rw [div_lt_iff₀ hden'] at hlead ⊢
    linarith
  have hgrid : (s.digits : ℚ) * 10 ^ (p - 17) < 2 * 10 ^ 18 * 10 ^ (p - 17) := by
    calc (s.digits : ℚ) * 10 ^ (p - 17) ≤ s.digits * 10 ^ s.exponent :=
          mul_le_mul_of_nonneg_left (zpow_le_zpow_right₀ (by norm_num) hexp) (Nat.cast_nonneg _)
      _ < 2 * 10 ^ (p + 1) := lt_of_le_of_lt hle hhigh
      _ = 2 * 10 ^ 18 * 10 ^ (p - 17) := by
          rw [mul_assoc, show p + 1 = (18 : Nat) + (p - 17) by omega, zpow_add₀ (by norm_num),
            zpow_natCast]
  exact_mod_cast lt_of_mul_lt_mul_right hgrid (by positivity)

end Double
end Polyshell
