/-
  Numbers that are spelled alike inside and outside of literals.

  Every whole number of 64 bits is, with or without a sign (`spelledAlike_whole`).  A decimal is if
  its digits together stay below `2^53` and no more than twenty-two stand behind the point
  (`spelledAlike_decimal`): a shell number is the double nearest to the decimal, and the reader of
  JSON divides by a power of ten in doubles, which then are exact.  In both cases no zero may lead,
  and zero has no sign.  Longer decimals are read alike or not, as the reader's roundings fall.
-/
import Polyshell.Proofs.Double.Exact
import Polyshell.Proofs.Mongo.Scalars

namespace Polyshell.Mongo

open Polyshell.Json (Numeral Whole intText readSigned readNumber readTail scale gatherLimit
  EndsDigits isNumeralChar)

/-- The sign in front of a number. -/
def signText (negative : Bool) : List Char := if negative then ['-'] else []

/-! ## Reading numbers with a sign -/

section Signed

variable (negative : Bool) {c : Char} (hc : Decimal.isDigit c = true) (r : List Char)
include hc

theorem readSigned_signText :
    readSigned (signText negative ++ c :: r) = readNumber negative (c :: r) := by
  have hm : c ≠ '-' := by
    rintro rfl
    exact absurd hc (by decide)
  cases negative with
  | true => rfl
  | false => exact Json.readSigned_of_ne_minus r hm

theorem number?_signText :
    number? (signText negative ++ c :: r) = numberFrom negative (c :: r) := by
  have hm : c ≠ '-' := by
    rintro rfl
    exact absurd hc (by decide)
  cases negative with
  | true => exact number?_minus (c :: r)
  | false => exact number?_unsigned hm r

end Signed

/-! ## Decimals -/

section Decimals

variable {whole frac : List Char} (hwhole : Whole whole)
  (hfrac : ∀ c ∈ frac, Decimal.isDigit c = true) (hne : frac ≠ [])
  (hshort : Decimal.value (whole ++ frac) < 2 ^ 53) (hlength : frac.length ≤ 22)

theorem Whole.exists_cons (h : Whole whole) : ∃ c r, whole = c :: r := by
  obtain ⟨-, rfl | ⟨c, r, rfl, -⟩⟩ := h
  · exact ⟨_, _, rfl⟩
  · exact ⟨_, _, rfl⟩

theorem withSign_ofRatio (negative : Bool) (num den : Nat) :
    Json.withSign negative (Double.ofRatio false num den) = Double.ofRatio negative num den := by
  cases negative with
  | true => rw [Json.withSign, if_pos rfl, Double.negate_ofRatio]
  | false => rw [Json.withSign, if_neg Bool.false_ne_true]

/-- A short number is scaled down exactly. -/
theorem scale_short {n k : Nat} (hn : n < 2 ^ 53) (hk : 0 < k) (hk' : k ≤ 22) (rest : List Char) :
    scale n (-(k : Int)) rest = .ok (Double.ofRatio false n (10 ^ k)) := by
  have hshrink : scale.shrink 3 (Double.ofInt n) (-(k : Int)) =
      (Double.ofInt n).div (Double.ofDecimal false 1 (- -(k : Int))) := by
    rw [scale.shrink, if_neg (by omega)]
  rw [neg_neg, Double.div_ofInt_pow hn hk'] at hshrink
  rw [← hshrink, scale]
  simp only
  rw [if_neg (by omega), if_neg (by omega)]

/-- No whole number of 64 bits is out of reach. -/
theorem ofDecimal_eq (negative : Bool) {n k : Nat} (hn : n < 2 ^ 64) (hk : k ≤ 22) :
    Double.ofDecimal negative n (-(k : Int)) = Double.ofRatio negative n (10 ^ k) := by
  rw [Double.ofDecimal]
  by_cases hzero : n = 0
  · rw [if_pos hzero, hzero, Double.ofRatio, if_pos rfl]
  · have hlength := (Decimal.length_digits_le_iff n (show 0 < 20 by decide)).mpr
      (Nat.lt_trans hn (by decide))
    simp only [if_neg hzero]
    rw [if_neg (by omega), if_neg (by omega), neg_neg, Int.toNat_natCast,
      Int.toNat_of_nonpos (by omega)]
    congr 1
    exact Nat.mul_one n

theorem finite_ofRatio (negative : Bool) {n k : Nat} (hn : n < 2 ^ 64) :
    number?.finite (Double.ofRatio negative n (10 ^ k)) =
      some (.real (Double.ofRatio negative n (10 ^ k))) := by
  have hpow : (1 : ℚ) ≤ (10 ^ k : Nat) := by
    exact_mod_cast Nat.one_le_pow k 10 (by decide)
  have hle : (n : ℚ) / (10 ^ k : Nat) ≤ n :=
    div_le_self (Nat.cast_nonneg n) hpow
  have hlt := Double.cast_lt_overflow hn
  rw [number?.finite, Double.isFinite_ofRatio negative (Nat.pow_pos (by decide)) (hle.trans_lt hlt),
    if_pos rfl]

include hwhole hfrac hne hshort hlength

/-- The reader of JSON rounds a short decimal once. -/
theorem numeral_decimal (negative : Bool) :
    Numeral (signText negative ++ (whole ++ '.' :: frac))
      (.real (Double.ofRatio negative (Decimal.value (whole ++ frac)) (10 ^ frac.length))) := by
  obtain ⟨c, r, hcons⟩ := Whole.exists_cons hwhole
  have hc : Decimal.isDigit c = true := hwhole.1 c (hcons ▸ List.mem_cons_self)
  constructor
  · intro d hd
    rcases List.mem_append.mp hd with hd | hd
    · cases negative with
      | true => rw [List.mem_singleton.mp hd]; rfl
      | false => cases hd
    · rcases List.mem_append.mp hd with hd | hd
      · exact Json.isNumeralChar_of_isDigit (hwhole.1 d hd)
      · rcases List.mem_cons.mp hd with rfl | hd
        · rfl
        · exact Json.isNumeralChar_of_isDigit (hfrac d hd)
  · have hfit : Decimal.value (whole ++ frac) ≤ gatherLimit :=
      Nat.le_of_lt (Nat.lt_trans hshort (by decide))
    have hread := Json.readNumber_point negative hwhole hfrac hne hfit EndsDigits.nil
    rw [List.append_nil] at hread
    rw [hcons, List.cons_append, readSigned_signText negative hc, ← List.cons_append, ← hcons, hread,
      readTail, scale_short hshort (List.length_pos_iff.mpr hne) hlength]
    show Except.ok (Json.Number.real (Json.withSign negative _), []) = _
    rw [withSign_ofRatio]

/-- The number by itself is the nearest double, too. -/
theorem number?_decimal (negative : Bool) :
    number? (signText negative ++ (whole ++ '.' :: frac)) =
      some (.real (Double.ofRatio negative (Decimal.value (whole ++ frac)) (10 ^ frac.length))) := by
  obtain ⟨c, r, hcons⟩ := Whole.exists_cons hwhole
  have hc : Decimal.isDigit c = true := hwhole.1 c (hcons ▸ List.mem_cons_self)
  have hpoint : '.' ∉ whole := fun hm => absurd (hwhole.1 _ hm) (by decide)
  have hdigits : (Decimal.allDigits whole && Decimal.allDigits frac) = true := by
    rw [Bool.and_eq_true, Decimal.allDigits_eq_true_iff, Decimal.allDigits_eq_true_iff]
    exact ⟨⟨hcons ▸ List.cons_ne_nil c r, hwhole.1⟩, hne, hfrac⟩
  have hword : Decimal.value (whole ++ frac) < 2 ^ 64 :=
    Nat.lt_trans hshort (by decide)
  have hnumber : numberFrom negative (whole ++ '.' :: frac) =
      some (.real (Double.ofRatio negative (Decimal.value (whole ++ frac)) (10 ^ frac.length))) := by
    rw [numberFrom, Text.cut_append hpoint]
    simp only [if_pos hdigits]
    rw [ofDecimal_eq negative hword hlength, finite_ofRatio negative hword]
  rw [hcons, List.cons_append, number?_signText negative hc, ← List.cons_append, ← hcons, hnumber]

theorem spelledAlike_decimal (negative : Bool) :
    SpelledAlike (signText negative ++ (whole ++ '.' :: frac)) :=
  .of_number (numeral_decimal hwhole hfrac hne hshort hlength negative)
    (number?_decimal hwhole hfrac hne hshort hlength negative) rfl

end Decimals

/-! ## Whole numbers -/

/-- Digits that do not fit a signed word are the nearest double. -/
theorem numberFrom_digits (negative : Bool) {n : Nat} (hn : n < 2 ^ 64)
    (hbig : if negative then 2 ^ 63 < n else 2 ^ 63 ≤ n) :
    numberFrom negative (Decimal.digits n) = some (.real (Double.ofRatio negative n 1)) := by
  have hpoint : '.' ∉ Decimal.digits n := fun hm =>
    absurd (Decimal.isDigit_of_mem_digits hm) (by decide)
  have hdouble := ofDecimal_eq negative hn (Nat.zero_le 22)
  have hfinite := finite_ofRatio negative (k := 0) hn
  rw [Nat.pow_zero] at hdouble hfinite
  have hrange : ¬ (decide (Decimal.minInt64 ≤ (if negative then -(n : Int) else n)) &&
      decide ((if negative then -(n : Int) else n) ≤ Decimal.maxInt64)) = true := by
    rw [Bool.and_eq_true, decide_eq_true_eq, decide_eq_true_eq, Decimal.minInt64, Decimal.maxInt64]
    cases negative with
    | true =>
      rw [if_pos rfl] at hbig ⊢
      omega
    | false =>
      rw [if_neg Bool.false_ne_true] at hbig ⊢
      omega
  rw [numberFrom, Text.cut_of_not_mem hpoint]
  simp only [Decimal.allDigits_digits, if_true, Decimal.value_digits]
  rw [if_neg hrange, show (0 : Int) = -((0 : Nat) : Int) from rfl, hdouble, hfinite]

/-- Whole numbers of 64 bits, with a sign or without, are spelled alike. -/
theorem spelledAlike_whole {i : Int} (h : i.natAbs < 2 ^ 64) : SpelledAlike (intText i) := by
  by_cases hword : Decimal.minInt64 ≤ i ∧ i ≤ Decimal.maxInt64
  · have hmax : i ≤ Decimal.maxWord64 := Int.le_trans hword.2 (by decide)
    exact .of_number (Json.numeral_intText hword.1 hmax) (number?_intText hword) rfl
  · rw [Decimal.minInt64, Decimal.maxInt64] at hword
    obtain ⟨c, r, hcons, hc, -⟩ := Decimal.head_digits (n := i.natAbs) (by omega)
    by_cases hneg : i < 0
    · -- both readers take the double, and put the sign in front
      have hn := numberFrom_digits true h (by rw [if_pos rfl]; omega)
      have hread := Json.readNumber_digits true (n := i.natAbs)
        (show i.natAbs ≤ gatherLimit by rw [gatherLimit, Decimal.maxWord64]; omega)
      rw [Json.finishWhole.whole, if_neg (by decide), if_pos (by simp; omega), Double.ofInt_natCast,
        Double.negate_ofRatio] at hread
      have htext : intText i = '-' :: Decimal.digits i.natAbs := by rw [intText, if_pos hneg]
      rw [htext]
      refine .of_number ⟨?_, hread⟩ hn rfl
      exact Json.forall_numeral_cons rfl fun d hd =>
        Json.isNumeralChar_of_isDigit (Decimal.isDigit_of_mem_digits hd)
    · have hn := numberFrom_digits false h (by rw [if_neg Bool.false_ne_true]; omega)
      have htext : intText i = Decimal.digits i.natAbs := by rw [intText, if_neg hneg]
      have hnumber : number? (intText i) = some (.real (Double.ofRatio false i.natAbs 1)) := by
        rw [htext, ← hn, hcons]
        exact number?_signText false hc r
      refine .of_number (Json.numeral_intText (by rw [Decimal.minInt64]; omega)
        (by rw [Decimal.maxWord64]; omega)) hnumber ?_
      have hnone : (Json.Number.int i).toInt64? = none := by
        rw [Json.Number.toInt64?, Decimal.minInt64, Decimal.maxInt64, if_neg]
        rw [Bool.and_eq_true, decide_eq_true_eq, decide_eq_true_eq]
        omega
      rw [Bson.ofNumber, hnone]
      show Bson.double (Double.ofRatio (i < 0) i.natAbs 1) = _
      rw [decide_eq_false hneg]
      rfl

end Polyshell.Mongo
