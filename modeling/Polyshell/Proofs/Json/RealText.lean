/-
  The printed form of every finite double is a number of JSON.

  The printer writes the shortest digits of a double in one of two shapes: with a point among them,
  or with one digit in front of the point and an exponent behind.  The reader gathers the digits,
  counts those behind the point, and scales what it has gathered by a power of ten.

  1. **Scaling down** never fails (`scale_down`): every text with a point and no exponent scales
     down.
  2. **Scaling up** fails when the product is infinite.  The reader rounds three times, so what it
     computes may be above the double that was printed.  There is room for that below the two
     largest doubles (`square_lt_overflow`); for those two the product is computed.
  3. **The texts**: `readNumber_point` and `readNumber_exponent` read the two shapes, for any
     digits.
-/
import Polyshell.Proofs.Double.Shortest
import Polyshell.Proofs.Json.Numeral

namespace Polyshell.Json

open Polyshell.Double (overflow overflow_lt overflow_succ_lt)

/-! ## Scaling -/

/-- A negative power of ten brings no number out of range. -/
theorem scale_down (n : Nat) {e : Int} (he : e < 0) (rest : List Char) :
    ∃ y, scale n e rest = .ok y := by
  rw [scale]
  simp only
  rw [if_neg (by omega), if_neg (by omega)]
  exact ⟨_, rfl⟩

/-- Two roundings of a number of `c` last places do not bring it up to a limit with room for them. -/
theorem two_roundings_lt {h c c' u : ℚ} (hu : 0 < u) (hh : h ≤ c * u)
    (hroom : c * (1 + 1 / 2 ^ (53 : Int)) * (1 + 1 / 2 ^ (53 : Int)) < c') :
    h * (1 + 1 / 2 ^ (53 : Int)) * (1 + 1 / 2 ^ (53 : Int)) < c' * u := by
  calc h * (1 + 1 / 2 ^ (53 : Int)) * (1 + 1 / 2 ^ (53 : Int))
      ≤ c * u * (1 + 1 / 2 ^ (53 : Int)) * (1 + 1 / 2 ^ (53 : Int)) :=
        mul_le_mul_of_nonneg_right (mul_le_mul_of_nonneg_right hh (by positivity)) (by positivity)
    _ = c * (1 + 1 / 2 ^ (53 : Int)) * (1 + 1 / 2 ^ (53 : Int)) * u := by ring
    _ < c' * u := mul_lt_mul_of_pos_right hroom hu

/-- Below the two largest doubles there is room for two roundings. -/
theorem square_lt_overflow {x : Double} (hx : x.isFinite = true)
    (htop : ¬ (Nat.pow 2 53 - 2 ≤ x.magnitude.1 ∧ x.magnitude.2 = 971)) :
    x.roundingHigh * (1 + 1 / 2 ^ (53 : Int)) * (1 + 1 / 2 ^ (53 : Int)) < overflow := by
  obtain ⟨hm, -, hq⟩ := Double.magnitude_bounds hx
  rw [Double.roundingHigh, overflow]
  rcases lt_or_eq_of_le hq with hlt | heq
  · -- a smaller last place: half the limit
    have hm' : (x.magnitude.1 : ℚ) ≤ 2 ^ (53 : Int) := by exact_mod_cast hm.le
    have hlast : (2 : ℚ) ^ x.magnitude.2 ≤ 2 ^ (970 : Int) :=
      zpow_le_zpow_right₀ (by norm_num) (by omega)
    have hsucc : (2 : ℚ) ^ (970 : Int) = 1 / 2 * 2 ^ (971 : Int) := by
      rw [show (971 : Int) = 1 + 970 from rfl, zpow_add₀ (by norm_num), zpow_one]
      ring
    refine two_roundings_lt (c := (2 ^ (53 : Int) + 1 / 2) * (1 / 2)) (by positivity) ?_ (by norm_num)
    rw [mul_assoc, ← hsucc]
    exact mul_le_mul (by linarith) hlast (by positivity) (by positivity)
  · -- the largest last place: the significand is three below the limit
    have hm' : (x.magnitude.1 : ℚ) ≤ 2 ^ (53 : Int) - 3 := by
      have hle : x.magnitude.1 + 3 ≤ Nat.pow 2 53 := by
        by_contra hgt
        exact htop ⟨by omega, heq⟩
      have hcast : (x.magnitude.1 : ℚ) + 3 ≤ 2 ^ (53 : Int) := by exact_mod_cast hle
      linarith
    rw [heq]
    refine two_roundings_lt (c := 2 ^ (53 : Int) - 5 / 2) (by positivity) ?_ (by norm_num)
    exact mul_le_mul_of_nonneg_right (by linarith) (by positivity)

/-- A number scaled up stays finite if there is room for two roundings above it. -/
theorem scale_up {n : Nat} {e : Int} (hn : 0 < n) (he : 0 ≤ e)
    (h : (n : ℚ) * 10 ^ e * (1 + 1 / 2 ^ (53 : Int)) * (1 + 1 / 2 ^ (53 : Int)) < overflow)
    (rest : List Char) : ∃ y, scale n e rest = .ok y := by
  have hn' : (1 : ℚ) ≤ n := by exact_mod_cast hn
  have hpow : (1 : ℚ) ≤ 10 ^ e := one_le_zpow₀ (by norm_num) he
  have hround : (1 : ℚ) ≤ 1 + 1 / 2 ^ (53 : Int) := by norm_num
  have hwhole : (n : ℚ) * 10 ^ e < overflow := by
    refine lt_of_le_of_lt ?_ h
    rw [mul_assoc]
    exact le_mul_of_one_le_right (by positivity) (one_le_mul_of_one_le_of_one_le hround hround)
  have htop : e ≤ 308 := by
    by_contra hgt
    have hbig : (10 : ℚ) ^ (309 : Int) ≤ 10 ^ e := zpow_le_zpow_right₀ (by norm_num) (by omega)
    have hle : (10 : ℚ) ^ e ≤ n * 10 ^ e := le_mul_of_one_le_left (by positivity) hn'
    exact absurd (hbig.trans hle) (not_le.mpr (hwhole.trans overflow_lt))
  -- the digits, and the power of ten, as the reader rounds them
  have hdigits : (Double.ofInt n).abs ≤ n * (1 + 1 / 2 ^ (53 : Int)) := by
    have hle := Double.abs_ofRatio_le hn Nat.one_pos
      (by
        rw [Nat.cast_one, div_one]
        exact lt_of_le_of_lt (le_mul_of_one_le_right (by positivity) hpow) hwhole)
      false (by rwa [Nat.cast_one, div_one])
    rwa [Nat.cast_one, div_one] at hle
  have hten : (Double.ofDecimal false 1 e).abs ≤ 10 ^ e * (1 + 1 / 2 ^ (53 : Int)) := by
    obtain ⟨k, rfl⟩ := Int.eq_ofNat_of_zero_le he
    have hpos : 0 < 1 * Nat.pow 10 k := Nat.mul_pos Nat.one_pos (Nat.pow_pos (by decide))
    have hle := Double.abs_ofRatio_le hpos (show 0 < Nat.pow 10 0 from Nat.one_pos)
    rw [Nat.one_mul, Nat.pow_eq, Nat.pow_eq, Nat.pow_zero, Nat.cast_one, div_one, Nat.cast_pow,
      Nat.cast_ofNat, ← zpow_natCast] at hle
    have hlt : (10 : ℚ) ^ (k : Int) < overflow :=
      lt_of_le_of_lt (le_mul_of_one_le_left (by positivity) hn') hwhole
    rw [Double.ofDecimal, if_neg (by decide)]
    simp only
    rw [show (Decimal.digits 1).length = 1 from rfl, if_neg (by omega), if_neg (by omega),
      Int.toNat_natCast, Int.toNat_of_nonpos (by omega), Nat.pow_eq, Nat.pow_eq, Nat.pow_zero,
      Nat.one_mul]
    exact hle hlt false hpow
  have hproduct : (Double.ofInt n).abs * (Double.ofDecimal false 1 e).abs < overflow := by
    refine lt_of_le_of_lt (mul_le_mul hdigits hten (Double.abs_nonneg _) (by positivity)) ?_
    rw [mul_mul_mul_comm, ← mul_assoc]
    exact h
  rw [scale]
  simp only
  rw [if_neg (by omega), if_pos he,
    Double.isInfinite_of_isFinite (Double.isFinite_mul hproduct), if_neg Bool.false_ne_true]
  exact ⟨_, rfl⟩

/-! ## Scaling the shortest digits -/

/-- Only the absolute value matters to the shortest digits. -/
theorem shortest_congr {x y : Double} (hx : x.isZero = false) (hy : y.isZero = false)
    (h : x.magnitude = y.magnitude) (tie : Double.Tie) : x.shortest tie = y.shortest tie := by
  rw [Double.shortest, Double.shortest, hx, hy, Double.roundingInterval, Double.roundingInterval, h]

/-- The two largest doubles, where the product has to be computed. -/
theorem scale_largest {s : Double.Scientific}
    (hs : s = ⟨17976931348623157, 292⟩ ∨ s = ⟨17976931348623155, 292⟩) {n z : Nat}
    (hn : n * 10 ^ z = s.digits) (rest : List Char) :
    ∃ y, scale n (z + s.exponent) rest = .ok y := by
  have hz : z = 0 := by
    by_contra hne
    obtain ⟨k, rfl⟩ := Nat.exists_eq_succ_of_ne_zero hne
    rw [Nat.pow_succ, ← Nat.mul_assoc] at hn
    rcases hs with rfl | rfl
    all_goals
      simp only at hn
      omega
  have hsome : ∀ m ∈ [17976931348623157, 17976931348623155],
      (scale m 292 []).toOption.isSome = true := by decide +kernel
  subst hz
  rw [Nat.pow_zero, Nat.mul_one] at hn
  have hm : s.digits ∈ [17976931348623157, 17976931348623155] ∧ s.exponent = 292 := by
    rcases hs with rfl | rfl <;> decide
  have hread := hsome _ hm.1
  rw [← hn] at hread
  rw [hm.2, Nat.cast_zero, zero_add]
  cases hy : scale n 292 [] with
  | error f => rw [hy] at hread; cases hread
  | ok y => exact ⟨y, scale_congr hy⟩

/-- **Scaling succeeds on the shortest digits** of a finite double, however many of their trailing
    zeros are counted into the exponent. -/
theorem scale_shortest {x : Double} (hx : x.isFinite = true) (hzero : x.isZero = false) {n z : Nat}
    (hn : n * 10 ^ z = (x.shortest .toEven).digits) (rest : List Char) :
    ∃ y, scale n (z + (x.shortest .toEven).exponent) rest = .ok y := by
  rcases lt_or_ge (z + (x.shortest .toEven).exponent) 0 with hneg | hpos
  · exact scale_down n hneg rest
  -- two roundings fit under the limit, except at the two largest doubles: these are computed
  by_cases htop : Nat.pow 2 53 - 2 ≤ x.magnitude.1 ∧ x.magnitude.2 = 971
  · have hmag : x.magnitude = (Double.mk 0x7FEFFFFFFFFFFFFF).magnitude ∨
        x.magnitude = (Double.mk 0x7FEFFFFFFFFFFFFE).magnitude := by
      have hm := (Double.magnitude_bounds hx).1
      have hdecode : (Double.mk 0x7FEFFFFFFFFFFFFF).magnitude = (Nat.pow 2 53 - 1, 971) ∧
          (Double.mk 0x7FEFFFFFFFFFFFFE).magnitude = (Nat.pow 2 53 - 2, 971) := by decide
      rw [hdecode.1, hdecode.2]
      rcases Nat.lt_or_ge x.magnitude.1 (Nat.pow 2 53 - 1) with h | h
      · exact Or.inr (Prod.ext (by simp only; omega) htop.2)
      · exact Or.inl (Prod.ext (by simp only; omega) htop.2)
    refine scale_largest (hmag.imp (fun h => ?_) (fun h => ?_)) hn rest
    · rw [shortest_congr hzero (by decide) h]
      decide +kernel
    · rw [shortest_congr hzero (by decide) h]
      decide +kernel
  · obtain ⟨hdigits, -, hle⟩ := Double.shortest_spec hzero .toEven
    have hvalue : (n : ℚ) * 10 ^ (z + (x.shortest .toEven).exponent) ≤ x.roundingHigh := by
      have hcast : (n : ℚ) * 10 ^ z = (x.shortest .toEven).digits := by exact_mod_cast hn
      rwa [zpow_add₀ (by norm_num), zpow_natCast, ← mul_assoc, hcast]
    refine scale_up ?_ hpos (lt_of_le_of_lt ?_ (square_lt_overflow hx htop)) rest
    · rcases Nat.eq_zero_or_pos n with rfl | h
      · omega
      · exact h
    · exact mul_le_mul_of_nonneg_right (mul_le_mul_of_nonneg_right hvalue (by positivity))
        (by positivity)

/-! ## Digits with a point among them -/

section Point

variable (negative : Bool)

/-- Digits behind a point that fit are gathered, up to what is no digit. -/
theorem readFraction_digits (before : Int) {rest : List Char} (hrest : EndsDigits rest)
    (ds : List Char) :
    ∀ n after, after + ds.length ≠ 0 → (∀ c ∈ ds, Decimal.isDigit c = true) →
      Decimal.valueFrom n ds ≤ gatherLimit →
      readFraction.gather negative before n after (ds ++ rest) =
        readTail negative (Decimal.valueFrom n ds) (before - (after + ds.length : Nat)) rest := by
  induction ds with
  | nil =>
    intro n after ha _ _
    rw [List.length_nil, Nat.add_zero] at ha ⊢
    cases rest with
    | nil => rw [List.append_nil, readFraction.gather, if_neg ha, Decimal.valueFrom_nil]
    | cons c r =>
      rw [List.nil_append, readFraction.gather, hrest c r rfl, if_neg Bool.false_ne_true,
        if_neg ha, Decimal.valueFrom_nil]
  | cons c ds ih =>
    intro n after _ hds hfit
    rw [Decimal.valueFrom_cons] at hfit
    have hstep := Decimal.le_valueFrom (10 * n + Decimal.digitValue c) ds
    rw [List.cons_append, readFraction.gather, if_pos (hds c List.mem_cons_self),
      if_neg (by omega), Nat.mul_comm n 10, Decimal.valueFrom_cons, List.length_cons,
      show after + (ds.length + 1) = after + 1 + ds.length by omega]
    exact ih _ _ (by omega) (fun d hd => hds d (List.mem_cons_of_mem c hd)) hfit

/-- The first digit of a whole number: a zero stands alone. -/
def Whole (ds : List Char) : Prop :=
  (∀ c ∈ ds, Decimal.isDigit c = true) ∧ (ds = ['0'] ∨ ∃ c r, ds = c :: r ∧ c ≠ '0')

theorem Whole.zero : Whole ['0'] := ⟨List.forall_mem_singleton.mpr (by decide), Or.inl rfl⟩

/-- A whole number in front of something else. -/
theorem readNumber_whole {ds rest : List Char} (h : Whole ds)
    (hfit : Decimal.value ds ≤ gatherLimit) (hrest : EndsDigits rest) :
    readNumber negative (ds ++ rest) = finishWhole negative (Decimal.value ds) rest := by
  obtain ⟨hds, rfl | ⟨c, r, rfl, hc⟩⟩ := h
  · cases rest with
    | nil => rfl
    | cons c r =>
      show (if Decimal.isDigit c then _ else _) = _
      rw [hrest c r rfl, if_neg Bool.false_ne_true]
      rfl
  · rw [Decimal.value, Decimal.valueFrom_cons, Nat.mul_zero, Nat.zero_add] at hfit ⊢
    rw [List.cons_append, readNumber_of_ne_zero _ hc, if_pos (hds c List.mem_cons_self)]
    exact readWhole_digits negative hrest r _ (fun d hd => hds d (List.mem_cons_of_mem c hd)) hfit

/-- A whole number, a point, and digits: what the digits together denote is scaled down. -/
theorem readNumber_point {ds frac rest : List Char} (h : Whole ds)
    (hfrac : ∀ c ∈ frac, Decimal.isDigit c = true) (hne : frac ≠ [])
    (hfit : Decimal.value (ds ++ frac) ≤ gatherLimit) (hrest : EndsDigits rest) :
    readNumber negative (ds ++ '.' :: (frac ++ rest)) = (do
      let (x, r) ← readTail negative (Decimal.value (ds ++ frac)) (-(frac.length : Int)) rest
      return (.real x, r)) := by
  rw [Decimal.value, Decimal.valueFrom_append] at hfit ⊢
  have hwhole : Decimal.value ds ≤ gatherLimit := (Decimal.le_valueFrom _ frac).trans hfit
  have hlength : 0 + frac.length ≠ 0 := by
    rw [Nat.zero_add, ne_eq, List.length_eq_zero_iff]
    exact hne
  have hread := readFraction_digits negative 0 hrest frac
    (Decimal.value ds) 0 hlength hfrac hfit
  rw [Nat.zero_add, zero_sub] at hread
  rw [readNumber_whole negative h hwhole (EndsDigits.cons (by decide) _)]
  show (do let (x, r) ← readFraction.gather negative 0 (Decimal.value ds) 0 (frac ++ rest)
           return (Number.real x, r)) = _
  rw [hread]
  rfl

/-- Nothing behind the point but digits: such a number is always read. -/
theorem readNumber_fixed {ds frac : List Char} (h : Whole ds)
    (hfrac : ∀ c ∈ frac, Decimal.isDigit c = true) (hne : frac ≠ [])
    (hfit : Decimal.value (ds ++ frac) ≤ gatherLimit) :
    ∃ y, readNumber negative (ds ++ '.' :: frac) = .ok (.real y, []) := by
  have hread := readNumber_point negative h hfrac hne hfit EndsDigits.nil
  have hlength : 0 < frac.length := List.length_pos_iff.mpr hne
  obtain ⟨y, hy⟩ := scale_down (Decimal.value (ds ++ frac)) (show -(frac.length : Int) < 0 by omega) []
  rw [List.append_nil, readTail, hy] at hread
  exact ⟨_, hread⟩

end Point

/-! ## Digits with an exponent -/

section Exponent

variable (negative : Bool) (n : Nat) {start : Int}

/-- The digits of an exponent that fit are gathered. -/
theorem gather_digits {down : Bool} (ds : List Char) :
    ∀ e, (∀ c ∈ ds, Decimal.isDigit c = true) → Decimal.valueFrom e ds ≤ 2147483647 →
      readExponent.gather negative n start down e ds =
        readExponent.finish negative n start down (Decimal.valueFrom e ds) [] := by
  induction ds with
  | nil =>
    intro e _ _
    rw [readExponent.gather, Decimal.valueFrom_nil]
  | cons c ds ih =>
    intro e hds hfit
    rw [Decimal.valueFrom_cons] at hfit
    have hstep := Decimal.le_valueFrom (10 * e + Decimal.digitValue c) ds
    rw [readExponent.gather, if_pos (hds c List.mem_cons_self), if_neg (by omega),
      Nat.mul_comm e 10, Decimal.valueFrom_cons]
    exact ih _ (fun d hd => hds d (List.mem_cons_of_mem c hd)) hfit

/-- A negative exponent is always read: one too large for its word makes a zero. -/
theorem gather_down (hstart : start ≤ 0) (ds : List Char) :
    ∀ e, 0 < e → (∀ c ∈ ds, Decimal.isDigit c = true) →
      ∃ y, readExponent.gather negative n start true e ds = .ok (y, []) := by
  induction ds with
  | nil =>
    intro e he _
    obtain ⟨y, hy⟩ := scale_down n (show start - e < 0 by omega) []
    rw [readExponent.gather, readExponent.finish, if_pos rfl, hy]
    exact ⟨_, rfl⟩
  | cons c ds ih =>
    intro e he hds
    have hrest : ∀ d ∈ ds, Decimal.isDigit d = true := fun d hd =>
      hds d (List.mem_cons_of_mem c hd)
    rw [readExponent.gather, if_pos (hds c List.mem_cons_self)]
    split
    · rw [if_neg (by simp)]
      refine ⟨Double.zero negative, ?_⟩
      rw [List.dropWhile_eq_nil_iff.mpr hrest]
    · exact ih _ (by omega) hrest

/-- An exponent as it is printed, with its sign. -/
theorem readExponent_printed (hstart : start ≤ 0) {e : Int} (hbound : e ≤ 2147483647)
    (hscale : 0 ≤ e → ∃ y, scale n (start + e) [] = .ok y) :
    ∃ y, readExponent negative n start
      ((if e < 0 then '-' else '+') :: Decimal.digits e.natAbs) = .ok (y, []) := by
  obtain ⟨c, r, hcons⟩ := List.exists_cons_of_ne_nil (Decimal.digits_ne_nil e.natAbs)
  have hdigits : ∀ d ∈ c :: r, Decimal.isDigit d = true := fun d hd =>
    Decimal.isDigit_of_mem_digits (n := e.natAbs) (hcons ▸ hd)
  have hc := hdigits c List.mem_cons_self
  have hr : ∀ d ∈ r, Decimal.isDigit d = true := fun d hd => hdigits d (List.mem_cons_of_mem c hd)
  -- a negative exponent may underflow to zero but not fail; a positive one needs the scaling
  by_cases he : e < 0
  · rw [if_pos he, hcons]
    show ∃ y, (if Decimal.isDigit c then
      readExponent.gather negative n start true (Decimal.digitValue c) r else _) = _
    rw [if_pos hc]
    refine gather_down negative n hstart r _ ?_ hr
    obtain ⟨c', r', hcons', hc', hzero⟩ :=
      Decimal.head_digits (show 0 < e.natAbs by omega)
    rw [hcons] at hcons'
    obtain ⟨rfl, -⟩ := List.cons.inj hcons'
    rw [Decimal.isDigit_iff] at hc'
    have hne : c.toNat ≠ 48 := fun h48 => hzero (Char.toNat_inj.mp h48)
    rw [Decimal.digitValue]
    omega
  · rw [if_neg he, hcons]
    show ∃ y, (if Decimal.isDigit c then
      readExponent.gather negative n start false (Decimal.digitValue c) r else _) = _
    have hvalue : Decimal.valueFrom (Decimal.digitValue c) r = e.natAbs := by
      have hv := Decimal.value_digits e.natAbs
      rwa [hcons, Decimal.value, Decimal.valueFrom_cons, Nat.mul_zero, Nat.zero_add] at hv
    rw [if_pos hc, gather_digits negative n r _ hr (by omega), hvalue, readExponent.finish,
      if_neg Bool.false_ne_true]
    obtain ⟨y, hy⟩ := hscale (by omega)
    rw [show (e.natAbs : Int) = e by omega, hy]
    exact ⟨_, rfl⟩

end Exponent

/-- One digit, the rest of them behind a point, and an exponent. -/
theorem readNumber_scientific (negative : Bool) {ds : List Char} {point : Int}
    (hds : ∀ c ∈ ds, Decimal.isDigit c = true) (hhead : ∃ c r, ds = c :: r ∧ c ≠ '0')
    (hfit : Decimal.value ds ≤ gatherLimit) (hbound : point ≤ 2147483648)
    (hscale : 0 < point → ∃ y, scale (Decimal.value ds) (point - ds.length) [] = .ok y) :
    ∃ y, readNumber negative (Double.scientific ds point) = .ok (.real y, []) := by
  obtain ⟨c, r, rfl, hc⟩ := hhead
  have hwhole : Whole [c] := ⟨fun d hd => hds d (by simp_all), Or.inr ⟨c, [], rfl, hc⟩⟩
  have hends : ∀ s : List Char, EndsDigits ('e' :: s) := fun s => EndsDigits.cons (by decide) s
  obtain ⟨y, hy⟩ := readExponent_printed negative (Decimal.value (c :: r))
    (show -(r.length : Int) ≤ 0 by omega) (show point - 1 ≤ 2147483647 by omega) (fun hpos => by
      obtain ⟨y, hy⟩ := hscale (by omega)
      rw [List.length_cons] at hy
      exact ⟨y, by rw [show -(r.length : Int) + (point - 1) = point - (r.length + 1 : Nat) by omega, hy]⟩)
  refine ⟨y, ?_⟩
  cases r with
  | nil =>
    show readNumber negative ([c] ++ 'e' :: ((if point - 1 < 0 then '-' else '+') ::
      Decimal.digits (point - 1).natAbs)) = _
    rw [readNumber_whole negative hwhole hfit (hends _)]
    show (do let (x, rest) ← readExponent negative (Decimal.value [c]) 0 _
             return (Number.real x, rest)) = _
    rw [List.length_nil, Nat.cast_zero, neg_zero] at hy
    rw [hy]
    rfl
  | cons d r =>
    show readNumber negative ([c] ++ '.' :: ((d :: r) ++ 'e' ::
      ((if point - 1 < 0 then '-' else '+') :: Decimal.digits (point - 1).natAbs))) = _
    rw [readNumber_point negative hwhole (fun x hx => hds x (List.mem_cons_of_mem c hx))
      (List.cons_ne_nil d r) hfit (hends _)]
    show (do let (x, rest) ← readExponent negative (Decimal.value (c :: d :: r)) _ _
             return (Number.real x, rest)) = _
    rw [hy]
    rfl

/-! ## The text of a finite double -/

/-- The digits that are printed: the trailing zeros are counted by the point. -/
theorem point_spec {s : Double.Scientific} (h : 0 < s.digits) :
    ∃ z : Nat, Decimal.value s.point.1 * 10 ^ z = s.digits ∧
      (∀ c ∈ s.point.1, Decimal.isDigit c = true) ∧ (∃ c r, s.point.1 = c :: r ∧ c ≠ '0') ∧
      s.point.2 = s.point.1.length + (z + s.exponent) := by
  obtain ⟨z, hlength, hvalue, hmem⟩ := Decimal.value_stripped (Decimal.digits s.digits)
  rw [Decimal.value_digits] at hvalue
  refine ⟨z, hvalue, fun c hc => Decimal.isDigit_of_mem_digits (hmem c hc), ?_, ?_⟩
  · obtain ⟨c, r, hcons, -, hc⟩ := Decimal.head_digits h
    obtain ⟨z', hz'⟩ := Decimal.exists_stripped (Decimal.digits s.digits)
    cases hp : Decimal.stripped (Decimal.digits s.digits) with
    | nil =>
      rw [hp, Decimal.value, Decimal.valueFrom_nil, Nat.zero_mul] at hvalue
      omega
    | cons d t =>
      rw [hp, hcons, List.cons_append] at hz'
      obtain ⟨rfl, -⟩ := List.cons.inj hz'
      exact ⟨c, t, hp, hc⟩
  · show ((Decimal.digits s.digits).length : Int) + s.exponent =
      (Decimal.stripped (Decimal.digits s.digits)).length + (z + s.exponent)
    rw [hlength]
    push_cast
    ring

/-- The point of a finite double is not far behind its digits. -/
theorem point_le {x : Double} (hx : x.isFinite = true) (hzero : x.isZero = false)
    (tie : Double.Tie) : (x.shortest tie).point.2 ≤ 309 := by
  obtain ⟨hpos, -, hle⟩ := Double.shortest_spec hzero tie
  generalize x.shortest tie = s at *
  obtain ⟨k, hk, hlow, -⟩ := Decimal.length_digits_bounds hpos
  obtain ⟨hm, -, hq⟩ := Double.magnitude_bounds hx
  have hhigh : x.roundingHigh ≤ overflow + 2 ^ (971 : Int) := by
    have hm' : (x.magnitude.1 : ℚ) ≤ 2 ^ (53 : Int) := by exact_mod_cast hm.le
    rw [Double.roundingHigh, overflow, ← add_one_mul]
    exact mul_le_mul (by linarith) (zpow_le_zpow_right₀ (by norm_num) hq) (by positivity)
      (by norm_num)
  -- the leading power of ten is below the number, which is below `10^309`
  have hlead : (10 : ℚ) ^ (k + s.exponent) < 10 ^ (309 : Int) := by
    calc (10 : ℚ) ^ (k + s.exponent) = 10 ^ k * 10 ^ s.exponent := by
          rw [zpow_add₀ (by norm_num), zpow_natCast]
      _ ≤ s.digits * 10 ^ s.exponent :=
          mul_le_mul_of_nonneg_right (by exact_mod_cast hlow) (by positivity)
      _ < 10 ^ (309 : Int) := lt_of_le_of_lt (hle.trans hhigh) overflow_succ_lt
  have hlt := (zpow_lt_zpow_iff_right₀ (by norm_num)).mp hlead
  show ((Decimal.digits s.digits).length : Int) + s.exponent ≤ 309
  omega

/-- `t` reads as a double, whatever its sign. -/
def ReadsReal (t : List Char) : Prop :=
  (∀ c ∈ t, isNumeralChar c = true) ∧ (∃ c r, t = c :: r ∧ c ≠ '-') ∧
    ∀ negative, ∃ y, readNumber negative t = .ok (.real y, [])

theorem ReadsReal.of_point {ds frac : List Char} (h : Whole ds)
    (hfrac : ∀ c ∈ frac, Decimal.isDigit c = true) (hne : frac ≠ [])
    (hfit : Decimal.value (ds ++ frac) ≤ gatherLimit) : ReadsReal (ds ++ '.' :: frac) := by
  refine ⟨fun c hc => ?_, ?_, fun negative => readNumber_fixed negative h hfrac hne hfit⟩
  · rcases List.mem_append.mp hc with hc | hc
    · exact isNumeralChar_of_isDigit (h.1 c hc)
    · rcases List.mem_cons.mp hc with rfl | hc
      · rfl
      · exact isNumeralChar_of_isDigit (hfrac c hc)
  · obtain ⟨hds, rfl | ⟨c, r, rfl, -⟩⟩ := h
    · exact ⟨'0', _, rfl, by decide⟩
    · refine ⟨c, _, rfl, ?_⟩
      rintro rfl
      exact absurd (hds '-' List.mem_cons_self) (by decide)

section Shape

variable {ds : List Char} (hds : ∀ c ∈ ds, Decimal.isDigit c = true)
  (hhead : ∃ c r, ds = c :: r ∧ c ≠ '0')
include hds hhead

theorem ReadsReal.scientific {point : Int} (hfit : Decimal.value ds ≤ gatherLimit)
    (hbound : point ≤ 2147483648)
    (hscale : 0 < point → ∃ y, scale (Decimal.value ds) (point - ds.length) [] = .ok y) :
    ReadsReal (Double.scientific ds point) := by
  refine ⟨?_, ?_, fun negative =>
    readNumber_scientific negative hds hhead hfit hbound hscale⟩
  · have hexp : ∀ c ∈ 'e' :: (if point - 1 < 0 then '-' else '+') ::
        Decimal.digits (point - 1).natAbs, isNumeralChar c = true := by
      intro c hc
      rcases List.mem_cons.mp hc with rfl | hc
      · rfl
      rcases List.mem_cons.mp hc with rfl | hc
      · split <;> rfl
      · exact isNumeralChar_of_isDigit (Decimal.isDigit_of_mem_digits hc)
    have hmantissa : ∀ c r, (∀ d ∈ c :: r, Decimal.isDigit d = true) →
        ∀ d ∈ c :: '.' :: r, isNumeralChar d = true := by
      intro c r hall d hd
      rcases List.mem_cons.mp hd with rfl | hd
      · exact isNumeralChar_of_isDigit (hall d List.mem_cons_self)
      rcases List.mem_cons.mp hd with rfl | hd
      · rfl
      · exact isNumeralChar_of_isDigit (hall d (List.mem_cons_of_mem c hd))
    obtain ⟨d, r, rfl, -⟩ := hhead
    intro c hc
    cases r with
    | nil =>
      rcases List.mem_append.mp hc with hc | hc
      · exact isNumeralChar_of_isDigit (hds c hc)
      · exact hexp c hc
    | cons e r =>
      rcases List.mem_append.mp hc with hc | hc
      · exact hmantissa d (e :: r) hds c hc
      · exact hexp c hc
  · obtain ⟨c, r, rfl, -⟩ := hhead
    have hc : c ≠ '-' := by
      rintro rfl
      exact absurd (hds '-' List.mem_cons_self) (by decide)
    cases r with
    | nil => exact ⟨c, _, rfl, hc⟩
    | cons d r => exact ⟨c, _, rfl, hc⟩

/-- The digits end in front of the point: zeros are filled in, and one more behind the point. -/
theorem ReadsReal.wholePoint {point : Int} (hlength : (ds.length : Int) ≤ point)
    (hpoint : point ≤ 16) : ReadsReal (Double.positional ds point ++ ['.', '0']) := by
  obtain ⟨c, r, hcons, hc⟩ := hhead
  have hpos : 0 < ds.length := by rw [hcons]; exact Nat.succ_pos _
  rw [Double.positional, if_neg (by omega), if_pos hlength]
  have hall : ∀ d ∈ ds ++ List.replicate (point.toNat - ds.length) '0',
      Decimal.isDigit d = true := by
    intro d hd
    rcases List.mem_append.mp hd with hd | hd
    · exact hds d hd
    · rw [List.eq_of_mem_replicate hd]
      rfl
  refine ReadsReal.of_point ⟨hall, Or.inr ⟨c, _, by rw [hcons, List.cons_append], hc⟩⟩
    (fun d hd => by rw [List.mem_singleton.mp hd]; rfl) (List.cons_ne_nil _ _) ?_
  -- seventeen digits at most, with the zero behind the point, are below the limit
  have hlt := Decimal.value_lt (s := ds ++ List.replicate (point.toNat - ds.length) '0' ++ ['0'])
    (by
      intro d hd
      rcases List.mem_append.mp hd with hd | hd
      · exact hall d hd
      · rw [List.mem_singleton.mp hd]
        rfl)
  refine hlt.le.trans ((Nat.pow_le_pow_right (n := 10) (by decide) (?_ : _ ≤ 17)).trans (by decide))
  simp only [List.length_append, List.length_replicate, List.length_singleton]
  omega

/-- The point stands among the digits, or zeros stand between it and them. -/
theorem ReadsReal.innerPoint {point : Int} (hlength : point < ds.length)
    (hfit : Decimal.value ds ≤ gatherLimit) : ReadsReal (Double.positional ds point) := by
  obtain ⟨c, r, hcons, hc⟩ := hhead
  rw [Double.positional]
  by_cases hneg : point ≤ 0
  · rw [if_pos hneg]
    refine ReadsReal.of_point Whole.zero ?_ ?_ ?_
    · intro d hd
      rcases List.mem_append.mp hd with hd | hd
      · rw [List.eq_of_mem_replicate hd]
        rfl
      · exact hds d hd
    · rw [hcons]
      exact List.append_ne_nil_of_right_ne_nil _ (List.cons_ne_nil c r)
    · rw [Decimal.value, Decimal.valueFrom_append, Decimal.valueFrom_append,
        Decimal.valueFrom_replicate_zero]
      exact hfit
  · rw [if_neg hneg, if_neg (by omega)]
    obtain ⟨k, hk⟩ := Nat.exists_eq_succ_of_ne_zero (show point.toNat ≠ 0 by omega)
    refine ReadsReal.of_point ⟨fun d hd => hds d (List.mem_of_mem_take hd), Or.inr
      ⟨c, r.take k, by rw [hcons, hk, List.take_succ_cons], hc⟩⟩
      (fun d hd => hds d (List.mem_of_mem_drop hd)) ?_ ?_
    · rw [ne_eq, List.drop_eq_nil_iff]
      omega
    · rwa [List.take_append_drop]

end Shape

/-- The printed form of a finite double, without its sign. -/
theorem inJson_eq_signed {x : Double} (hx : x.isFinite = true) :
    ∃ t, x.inJson = x.signed t ∧ ReadsReal t := by
  rw [Double.inJson, hx, if_neg (by decide)]
  by_cases hzero : x.isZero = true
  · rw [if_pos hzero]
    have hread : ReadsReal (['0'] ++ '.' :: ['0']) :=
      ReadsReal.of_point Whole.zero (List.forall_mem_singleton.mpr (by decide)) (by decide) (by decide)
    exact ⟨_, rfl, hread⟩
  rw [if_neg hzero]
  rw [Bool.not_eq_true] at hzero
  obtain ⟨hpos, hsmall, hle⟩ := Double.shortest_spec hzero .toEven
  obtain ⟨z, hvalue, hds, hhead, hpoint⟩ := point_spec hpos
  -- without its trailing zeros the digits are no larger
  have hfit : Decimal.value (x.shortest .toEven).point.1 ≤ gatherLimit := by
    have hmul := Nat.le_mul_of_pos_right (Decimal.value (x.shortest .toEven).point.1)
      (show 0 < 10 ^ z from Nat.pow_pos (by decide))
    rw [hvalue] at hmul
    rw [gatherLimit, Decimal.maxWord64]
    omega
  have hscale := fun rest => scale_shortest hx hzero hvalue rest
  have hlead := point_le hx hzero .toEven
  generalize (x.shortest .toEven).point = p at *
  obtain ⟨ds, point⟩ := p
  simp only at hpoint hds hhead hfit hvalue hscale hlead ⊢
  split
  · refine ⟨_, rfl, ReadsReal.scientific hds hhead hfit (by omega) fun _ => ?_⟩
    rw [hpoint, add_sub_cancel_left]
    exact hscale []
  · rename_i hrange
    simp only [Bool.or_eq_true, decide_eq_true_eq, not_or] at hrange
    split
    · rename_i hlength
      exact ⟨_, rfl, ReadsReal.wholePoint hds hhead hlength (by omega)⟩
    · rename_i hlength
      exact ⟨_, rfl, ReadsReal.innerPoint hds hhead (by omega) hfit⟩

/-- **Every finite double is printed as a number of JSON.** -/
theorem numeral_inJson {x : Double} (hx : x.isFinite = true) :
    ∃ y, Numeral x.inJson.toList (.real y) := by
  obtain ⟨t, ht, hchars, ⟨c, r, hcons, hc⟩, hreads⟩ := inJson_eq_signed hx
  rw [ht, Double.signed, String.toList_ofList]
  by_cases hneg : x.isNegative = true
  · rw [if_pos hneg]
    obtain ⟨y, hy⟩ := hreads true
    refine ⟨y, fun d hd => ?_, hy⟩
    rcases List.mem_cons.mp hd with rfl | hd
    · rfl
    · exact hchars d hd
  · rw [if_neg hneg]
    obtain ⟨y, hy⟩ := hreads false
    refine ⟨y, hchars, ?_⟩
    rw [hcons] at hy ⊢
    rw [readSigned_of_ne_minus r hc, hy]

end Polyshell.Json
