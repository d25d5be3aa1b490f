/-
  What `limit` and `skip` count to, for a whole number of any length.

  1. **The number** — a whole number within 64 bits is read as it stands, a longer one by way of the
     nearest double, and one that no finite double is near to is no number any more.  A double is taken
     for a count if it is whole, and large ones always are; it is then clamped to the words of 64 bits.
     `counted` says all this by the number alone (`int64?_numberFrom`).

  2. **The argument** — a sign and digits are read as a number or, where there is none, as an identifier,
     which is no count (`ofText_whole`).

  3. **The methods** — so `limit` is exact or refused up to the words of 64 bits and from the limit of the
     doubles up, and nowhere in between, and `skip` likewise above zero (`counts_exact_iff`).
-/
import Polyshell.Proofs.Double.Overflow
import Polyshell.Proofs.Mongo.Spellings
import Polyshell.Mongo.Query

namespace Polyshell.Mongo

open Polyshell.Text
open Polyshell.Double (overflowNat)

/-! ## The number -/

/-- The whole number that digits denote, with the sign in front. -/
def signedValue (negative : Bool) (ds : List Char) : Int :=
  if negative then -(Decimal.value ds : Int) else Decimal.value ds

/-- A word of 64 bits holds the number. -/
def FitsWord (i : Int) : Prop := Decimal.minInt64 ≤ i ∧ i ≤ Decimal.maxInt64

instance (i : Int) : Decidable (FitsWord i) :=
  inferInstanceAs (Decidable (Decimal.minInt64 ≤ i ∧ i ≤ Decimal.maxInt64))

/-- What a whole number counts for. -/
def counted (i : Int) : Option Int :=
  if i.natAbs < overflowNat then some (max Decimal.minInt64 (min Decimal.maxInt64 i)) else none

theorem natAbs_signedValue (negative : Bool) (ds : List Char) :
    (signedValue negative ds).natAbs = Decimal.value ds := by
  cases negative with
  | true => exact Int.natAbs_neg _
  | false => rfl

/-- The words of 64 bits are far from the limit of the doubles. -/
theorem FitsWord.natAbs_lt {i : Int} (h : FitsWord i) : i.natAbs < overflowNat := by
  have hlimit : 2 ^ 64 ≤ overflowNat := Double.two_pow_le_overflowNat (by decide)
  simp only [FitsWord, Decimal.minInt64, Decimal.maxInt64] at h
  omega

theorem counted_of_fits {i : Int} (h : FitsWord i) : counted i = some i := by
  rw [counted, if_pos h.natAbs_lt, Int.min_eq_right h.2, Int.max_eq_right h.1]

theorem counted_of_overflow {i : Int} (h : overflowNat ≤ i.natAbs) : counted i = none :=
  if_neg (Nat.not_lt.mpr h)

/-- A whole number that is a double, but no word, is whole as a double and clamped as a count. -/
theorem int64?_real (negative : Bool) {n : Nat} (hn : 2 ^ 63 ≤ n) (h : n < overflowNat) :
    (Argument.number (.real (Double.ofDecimal negative n 0))).int64? =
      some (if negative then Decimal.minInt64 else Decimal.maxInt64) := by
  obtain ⟨N, hN, habs⟩ := Double.exists_abs_ofRatio negative hn h
  have hfinite := (Double.isFinite_ofDecimal_iff negative n).mpr h
  rw [Double.ofDecimal_whole negative h] at hfinite ⊢
  show (if (Double.ofRatio negative n 1).toInt?.isSome then
    some ((Double.ofRatio negative n 1).clampToInt Decimal.minInt64 Decimal.maxInt64) else none) = _
  rw [Double.toInt?_of_abs hfinite habs, Double.clampToInt_of_large hfinite habs hN,
    Double.isNegative_ofRatio]
  rfl

/-- Digits with a sign count for what their number does. -/
theorem int64?_numberFrom (negative : Bool) {ds : List Char} (hne : ds ≠ [])
    (h : ∀ c ∈ ds, Decimal.isDigit c = true) :
    ((numberFrom negative ds).bind fun n => (Argument.number n).int64?) =
      counted (signedValue negative ds) := by
  have hpoint : '.' ∉ ds := fun hm => absurd (h _ hm) (by decide)
  have hdigits : Decimal.allDigits ds = true := (Decimal.allDigits_eq_true_iff ds).mpr ⟨hne, h⟩
  rw [numberFrom, cut_of_not_mem hpoint]
  simp only [hdigits, if_true]
  rw [← signedValue]
  by_cases hfits : FitsWord (signedValue negative ds)
  · have hrange : (decide (Decimal.minInt64 ≤ signedValue negative ds) &&
        decide (signedValue negative ds ≤ Decimal.maxInt64)) = true := by
      rw [Bool.and_eq_true, decide_eq_true_eq, decide_eq_true_eq]
      exact hfits
    have hword : (Json.Number.int (signedValue negative ds)).toInt64? =
        some (signedValue negative ds) := if_pos hrange
    rw [if_pos hrange, Option.bind_some, counted_of_fits hfits, Argument.int64?, hword]
  · have hrange : ¬ (decide (Decimal.minInt64 ≤ signedValue negative ds) &&
        decide (signedValue negative ds ≤ Decimal.maxInt64)) = true := by
      rw [Bool.and_eq_true, decide_eq_true_eq, decide_eq_true_eq]
      exact hfits
    rw [if_neg hrange, number?.finite, counted, natAbs_signedValue]
    by_cases hlimit : Decimal.value ds < overflowNat
    · have hlarge : 2 ^ 63 ≤ Decimal.value ds := by
        have habs := natAbs_signedValue negative ds
        simp only [FitsWord, Decimal.minInt64, Decimal.maxInt64] at hfits
        omega
      rw [if_pos ((Double.isFinite_ofDecimal_iff negative _).mpr hlimit), if_pos hlimit,
        Option.bind_some, int64?_real negative hlarge hlimit]
      simp only [FitsWord, signedValue, Decimal.minInt64, Decimal.maxInt64] at hfits ⊢
      cases negative with
      | true =>
        simp only [if_true] at hfits ⊢
        congr 1
        omega
      | false =>
        simp only [Bool.false_eq_true, if_false] at hfits ⊢
        congr 1
        omega
    · rw [if_neg fun hfinite => hlimit ((Double.isFinite_ofDecimal_iff negative _).mp hfinite),
        if_neg hlimit, Option.bind_none]

/-! ## The argument -/

/-- A text that begins with a sign or a digit is no literal in brackets and no constructor call. -/
theorem not_isLiteral_of_number {c : Char} (hc : c = '-' ∨ Decimal.isDigit c = true) (r : List Char) :
    Argument.isLiteral (c :: r) = false := by
  rw [Bool.eq_false_iff]
  intro hliteral
  rcases isLiteral_cases hliteral with ⟨o, s, ho, he⟩ | hhead
  · obtain ⟨rfl, -⟩ := List.cons.inj he
    rcases ho with rfl | rfl <;> exact absurd hc (by decide)
  · obtain ⟨w, rest, -, -, he, -, -, -, -, -, d, s, rfl, hm, hd⟩ := exists_head_word hhead
    obtain ⟨rfl, -⟩ := List.cons.inj he
    rcases hc with hc | hc
    · exact hm hc
    · rw [hd] at hc
      cases hc

/-- A text that begins with a sign or a digit is a number or an identifier. -/
theorem ofTrimmed_of_number (ambient : Ambient) {c : Char}
    (hc : c = '-' ∨ Decimal.isDigit c = true) (r : List Char) :
    Argument.ofTrimmed ambient (c :: r) = .ok (match number? (c :: r) with
      | some n => .number n
      | none => .raw (String.ofList (c :: r))) := by
  have hquote : Scan.isQuote c = false := by
    rw [Bool.eq_false_iff]
    intro hq
    rw [Scan.isQuote, Bool.or_eq_true, decide_eq_true_eq, decide_eq_true_eq] at hq
    rcases hq with rfl | rfl <;> exact absurd hc (by decide)
  rw [ofTrimmed_of_not_word ambient (ne_word_of_number hc r), dequote?_eq_none hquote,
    not_isLiteral_of_number hc r]
  cases number? (c :: r) <;> rfl

section Counts

variable (ambient : Ambient) (negative : Bool) {ds : List Char}
  (h : ∀ c ∈ ds, Decimal.isDigit c = true)
include h

/-- A sign and digits are read as an argument that counts for their number; a sign by itself, and no
    text at all, count for nothing. -/
theorem ofText_whole : ∃ a, Argument.ofText ambient (signText negative ++ ds) = .ok a ∧
    a.int64? = if ds = [] then none else counted (signedValue negative ds) := by
  by_cases hne : ds = []
  · subst hne
    cases negative with
    | true => exact ⟨.raw "-", rfl, rfl⟩
    | false => exact ⟨.raw "", rfl, rfl⟩
  obtain ⟨c, r, rfl⟩ := List.exists_cons_of_ne_nil hne
  have hc : Decimal.isDigit c = true := h c List.mem_cons_self
  have hsolid : Solid (signText negative ++ c :: r) := by
    refine Solid.of_all (List.append_ne_nil_of_right_ne_nil _ hne) fun d hd => ?_
    refine not_isBlank_of_isNumeralChar ?_
    rcases List.mem_append.mp hd with hd | hd
    · cases negative with
      | true => rw [List.mem_singleton.mp hd]; rfl
      | false => cases hd
    · exact Json.isNumeralChar_of_isDigit (h d hd)
  obtain ⟨d, s, hds, hd⟩ : ∃ d s, signText negative ++ c :: r = d :: s ∧
      (d = '-' ∨ Decimal.isDigit d = true) := by
    cases negative with
    | true => exact ⟨'-', c :: r, rfl, Or.inl rfl⟩
    | false => exact ⟨c, r, rfl, Or.inr hc⟩
  have hcount := int64?_numberFrom negative hne h
  rw [← number?_signText negative hc, hds] at hcount
  refine ⟨_, by rw [Argument.ofText, hsolid.trim, hds, ofTrimmed_of_number ambient hd], ?_⟩
  rw [if_neg hne, ← hcount]
  cases number? (d :: s) <;> rfl

end Counts

/-! ## The methods -/

theorem applyCall_limit (q : Query) (a : Argument) : q.applyCall ⟨"limit", [a]⟩ =
    match a.int64? with
    | some n => .ok { q with limit := some n }
    | none => badArgument "limit" "expected an integer" := by
  have happly : q.applyCall ⟨"limit", [a]⟩ = q.applyMethod .limit [a] := rfl
  rw [happly, Query.applyMethod, integerArgument, List.head?_cons, Option.bind_some]
  cases a.int64? <;> rfl

theorem applyCall_skip (q : Query) (a : Argument) : q.applyCall ⟨"skip", [a]⟩ =
    match a.int64? with
    | some n =>
      if n < 0 then badArgument "skip" "must not be negative"
      else .ok { q with skip := some n.toNat }
    | none => badArgument "skip" "expected an integer" := by
  have happly : q.applyCall ⟨"skip", [a]⟩ = q.applyMethod .skip [a] := rfl
  rw [happly, Query.applyMethod, integerArgument, List.head?_cons, Option.bind_some]
  cases a.int64? <;> rfl

/-- The call is refused, or it sets the limit to `i` and nothing else. -/
def LimitExact (q : Query) (a : Argument) (i : Int) : Prop :=
  ∀ q', q.applyCall ⟨"limit", [a]⟩ = .ok q' → q' = { q with limit := some i }

/-- The call is refused, or it skips `i` documents and changes nothing else. -/
def SkipExact (q : Query) (a : Argument) (i : Int) : Prop :=
  ∀ q', q.applyCall ⟨"skip", [a]⟩ = .ok q' → 0 ≤ i ∧ q' = { q with skip := some i.toNat }

section Exact

variable (q : Query) {a : Argument} {i : Int}

theorem limitExact_of_none (ha : a.int64? = none) : LimitExact q a i := by
  intro q' hq
  rw [applyCall_limit, ha] at hq
  cases hq

theorem skipExact_of_none (ha : a.int64? = none) : SkipExact q a i := by
  intro q' hq
  rw [applyCall_skip, ha] at hq
  cases hq

/-- A limit that is accepted is exact only if it is the number that was counted. -/
theorem limitExact_iff_of_some {n : Int} (ha : a.int64? = some n) : LimitExact q a i ↔ n = i := by
  rw [LimitExact, applyCall_limit, ha]
  constructor
  · intro hexact
    have heq := congrArg Query.limit (hexact _ rfl)
    exact Option.some.inj heq
  · rintro rfl q' hq
    cases hq
    rfl

/-- And so is a skip, unless it is refused for its sign. -/
theorem skipExact_iff_of_some {n : Int} (ha : a.int64? = some n) :
    SkipExact q a i ↔ n < 0 ∨ n = i := by
  rw [SkipExact, applyCall_skip, ha]
  by_cases hneg : n < 0
  · refine ⟨fun _ => Or.inl hneg, fun _ q' hq => ?_⟩
    simp only [if_pos hneg] at hq
    cases hq
  · simp only [if_neg hneg]
    constructor
    · intro hexact
      obtain ⟨hpos, heq⟩ := hexact _ rfl
      have hskip : n.toNat = i.toNat := Option.some.inj (congrArg Query.skip heq)
      right
      omega
    · rintro (hlt | rfl) q' hq
      · exact absurd hlt hneg
      · cases hq
        exact ⟨by omega, rfl⟩

end Exact

/-- **Where `limit` and `skip` are exact or refused.**  A sign and any number of digits are read as an
    argument without a fault.  `limit` with it is refused or sets exactly the number that is written, if
    and only if a word of 64 bits holds this number or no finite double is near to it; `skip`, if and only
    if it is no more than such a word holds or no finite double is near to it.  Between the two the call
    sets another number.  A number that a word holds is never refused for its size. -/
theorem counts_exact_iff (ambient : Ambient) (q : Query) (negative : Bool) {ds : List Char}
    (h : ∀ c ∈ ds, Decimal.isDigit c = true) :
    ∃ a, Argument.ofText ambient (signText negative ++ ds) = .ok a ∧
      (LimitExact q a (signedValue negative ds) ↔
        FitsWord (signedValue negative ds) ∨ 2 ^ 1024 - 2 ^ 970 ≤ (signedValue negative ds).natAbs) ∧
      (SkipExact q a (signedValue negative ds) ↔
        signedValue negative ds ≤ Decimal.maxInt64 ∨
          2 ^ 1024 - 2 ^ 970 ≤ (signedValue negative ds).natAbs) ∧
      (ds ≠ [] → FitsWord (signedValue negative ds) →
        q.applyCall ⟨"limit", [a]⟩ = .ok { q with limit := some (signedValue negative ds) } ∧
        (0 ≤ signedValue negative ds →
          q.applyCall ⟨"skip", [a]⟩ =
            .ok { q with skip := some (signedValue negative ds).toNat })) := by
  obtain ⟨a, ha, hcount⟩ := ofText_whole ambient negative h
  refine ⟨a, ha, ?_⟩
  rw [← overflowNat]
  have hzero : ds = [] → signedValue negative ds = 0 := by
    rintro rfl
    cases negative <;> rfl
  generalize signedValue negative ds = i at hcount hzero ⊢
  by_cases hne : ds = []
  · -- no digits: nothing is counted
    rw [if_pos hne] at hcount
    rw [hzero hne]
    exact ⟨⟨fun _ => Or.inl (by decide), fun _ => limitExact_of_none q hcount⟩,
      ⟨fun _ => Or.inl (by decide), fun _ => skipExact_of_none q hcount⟩,
      fun hds => absurd hne hds⟩
  rw [if_neg hne] at hcount
  rcases Nat.lt_or_ge i.natAbs overflowNat with hlt | hge
  · have hsome : a.int64? = some (max Decimal.minInt64 (min Decimal.maxInt64 i)) := by
      rw [hcount, counted, if_pos hlt]
    refine ⟨?_, ?_, fun _ hfits => ?_⟩
    · rw [limitExact_iff_of_some q hsome]
      simp only [FitsWord, Decimal.minInt64, Decimal.maxInt64]
      omega
    · rw [skipExact_iff_of_some q hsome]
      simp only [Decimal.minInt64, Decimal.maxInt64]
      omega
    · rw [counted_of_fits hfits] at hcount
      refine ⟨by rw [applyCall_limit, hcount], fun hpos => ?_⟩
      rw [applyCall_skip, hcount]
      exact if_neg (by omega)
  · rw [counted_of_overflow hge] at hcount
    refine ⟨⟨fun _ => Or.inr hge, fun _ => limitExact_of_none q hcount⟩,
      ⟨fun _ => Or.inr hge, fun _ => skipExact_of_none q hcount⟩, fun _ hfits => ?_⟩
    exact absurd hfits.natAbs_lt (Nat.not_lt.mpr hge)

/-- The number ten is counted as it stands. -/
theorem counts_exact_iff_ten :
    (∀ c ∈ "10".toList, Decimal.isDigit c = true) ∧
      ∃ a, Argument.ofText ⟨0, fun _ => ⟨0⟩⟩ "10".toList = .ok a ∧
        LimitExact (Query.ofFilter [] false) a 10 ∧ SkipExact (Query.ofFilter [] false) a 10 := by
  have hdigits : ∀ c ∈ "10".toList, Decimal.isDigit c = true := List.all_eq_true.mp (by decide)
  obtain ⟨a, ha, hlimit, hskip, -⟩ :=
    counts_exact_iff ⟨0, fun _ => ⟨0⟩⟩ (Query.ofFilter [] false) false hdigits
  exact ⟨hdigits, a, ha, hlimit.mpr (Or.inl (by decide)), hskip.mpr (Or.inl (by decide))⟩

/-- The first number that no word holds is neither refused nor counted as it stands. -/
theorem limit_beyond_word : ∃ a,
    Argument.ofText ⟨0, fun _ => ⟨0⟩⟩ "9223372036854775808".toList = .ok a ∧
      ¬ LimitExact (Query.ofFilter [] false) a 9223372036854775808 ∧
      (Query.ofFilter [] false).applyCall ⟨"limit", [a]⟩ =
        .ok { Query.ofFilter [] false with limit := some 9223372036854775807 } := by
  have hdigits : ∀ c ∈ "9223372036854775808".toList, Decimal.isDigit c = true :=
    List.all_eq_true.mp (by decide)
  obtain ⟨a, ha, hcount⟩ := ofText_whole ⟨0, fun _ => ⟨0⟩⟩ false hdigits
  have hvalue : signedValue false "9223372036854775808".toList = 9223372036854775808 := by decide
  have hclamped : counted 9223372036854775808 = some 9223372036854775807 := by decide +kernel
  rw [hvalue, if_neg (by decide), hclamped] at hcount
  refine ⟨a, ha, ?_, by rw [applyCall_limit, hcount]⟩
  rw [limitExact_iff_of_some _ hcount]
  decide

end Polyshell.Mongo
