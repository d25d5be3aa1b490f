/-
  How the numbers are written that the reader takes.

  `NumberText` is the grammar of numbers in JSON, and says nothing of what they denote: a sign or
  none, a whole number without zeros in front, and behind it perhaps a point with digits and
  perhaps an exponent.

  The reader has no such grammar.  It goes from one function to the next with what it has computed
  so far, leaves a loop early when a number grows too long, and passes over the digits that no
  longer fit.  So there is one lemma here for each of its functions, innermost first: what the
  function uses up to the end is the rest of a number.
-/
import Polyshell.Proofs.Json.Consumed
import Polyshell.Proofs.Json.RealText

namespace Polyshell.Json

/-! ## The grammar -/

/-- An exponent, or nothing. -/
inductive ExponentText : List Char → Prop
  | absent : ExponentText []
  | present {m : Char} {s ds : List Char} (hm : m = 'e' ∨ m = 'E')
      (hs : s = [] ∨ s = ['+'] ∨ s = ['-']) (hne : ds ≠ [])
      (hds : ∀ c ∈ ds, Decimal.isDigit c = true) : ExponentText (m :: (s ++ ds))

/-- What stands behind the whole part of a number. -/
inductive FractionText : List Char → Prop
  | absent {t : List Char} (h : ExponentText t) : FractionText t
  | present {ds t : List Char} (hne : ds ≠ []) (hds : ∀ c ∈ ds, Decimal.isDigit c = true)
      (h : ExponentText t) : FractionText ('.' :: (ds ++ t))

/-- A number of JSON. -/
inductive NumberText : List Char → Prop
  | mk {s ds t : List Char} (hs : s = [] ∨ s = ['-']) (hds : Whole ds) (h : FractionText t) :
      NumberText (s ++ (ds ++ t))

/-- It starts with a sign or a digit. -/
theorem NumberText.head {t : List Char} (h : NumberText t) :
    ∃ c r, t = c :: r ∧ (c = '-' ∨ Decimal.isDigit c = true) := by
  obtain ⟨hs, ⟨hall, hds⟩, -⟩ := h
  rcases hs with rfl | rfl
  · rcases hds with rfl | ⟨c, r, rfl, -⟩
    · exact ⟨'0', _, rfl, Or.inr rfl⟩
    · exact ⟨c, _, rfl, Or.inr (hall c List.mem_cons_self)⟩
  · exact ⟨'-', _, rfl, Or.inl rfl⟩

theorem ExponentText.chars {t : List Char} (h : ExponentText t) :
    ∀ c ∈ t, isNumeralChar c = true := by
  cases h with
  | absent => exact fun c hc => absurd hc List.not_mem_nil
  | @present m s ds hm hs _ hds =>
    refine List.forall_mem_cons.mpr ⟨by rcases hm with rfl | rfl <;> rfl, fun c hc => ?_⟩
    rcases List.mem_append.mp hc with hc | hc
    · rcases hs with rfl | rfl | rfl
      · exact absurd hc List.not_mem_nil
      · rw [List.mem_singleton.mp hc]; rfl
      · rw [List.mem_singleton.mp hc]; rfl
    · exact isNumeralChar_of_isDigit (hds c hc)

theorem FractionText.chars {t : List Char} (h : FractionText t) :
    ∀ c ∈ t, isNumeralChar c = true := by
  cases h with
  | absent h => exact h.chars
  | present _ hds h =>
    refine List.forall_mem_cons.mpr ⟨rfl, fun c hc => ?_⟩
    rcases List.mem_append.mp hc with hc | hc
    · exact isNumeralChar_of_isDigit (hds c hc)
    · exact h.chars c hc

theorem NumberText.chars {t : List Char} (h : NumberText t) : ∀ c ∈ t, isNumeralChar c = true := by
  obtain ⟨hs, ⟨hds, -⟩, h⟩ := h
  intro c hc
  rcases List.mem_append.mp hc with hc | hc
  · rcases hs with rfl | rfl
    · exact absurd hc List.not_mem_nil
    · rw [List.mem_singleton.mp hc]; rfl
  · rcases List.mem_append.mp hc with hc | hc
    · exact isNumeralChar_of_isDigit (hds c hc)
    · exact h.chars c hc

/-! ## What the reader uses up -/

section Parts

variable {negative : Bool} {t : List Char}

/-- The digits of an exponent. -/
theorem digits_of_readExponent_gather {n e : Nat} {start : Int} {down : Bool} {x : Double}
    (h : readExponent.gather negative n start down e t = .ok (x, [])) :
    ∀ c ∈ t, Decimal.isDigit c = true := by
  induction t generalizing e with
  | nil => exact fun _ hc => absurd hc List.not_mem_nil
  | cons c r ih =>
    rw [readExponent.gather] at h
    by_cases hd : Decimal.isDigit c = true
    · refine List.forall_mem_cons.mpr ⟨hd, ?_⟩
      rw [if_pos hd] at h
      by_cases hbig : 2147483647 < e * 10 + Decimal.digitValue c
      · -- the further digits are passed over
        rw [if_pos hbig] at h
        split at h
        · cases h
        · exact List.dropWhile_eq_nil_iff.mp (Prod.mk.inj (Except.ok.inj h)).2
      · rw [if_neg hbig] at h
        exact ih h
    · rw [if_neg hd] at h
      cases rest_of_finish h

/-- What follows the mark of an exponent. -/
theorem exists_of_readExponent {n : Nat} {start : Int} {x : Double}
    (h : readExponent negative n start t = .ok (x, [])) :
    ∃ s ds, t = s ++ ds ∧ (s = [] ∨ s = ['+'] ∨ s = ['-']) ∧ ds ≠ [] ∧
      ∀ c ∈ ds, Decimal.isDigit c = true := by
  unfold readExponent at h
  split at h
  next down ds heq =>
  obtain ⟨d, p, rfl, hd, -, hread⟩ := exponentDigits_takes down ds h
  have hne : d :: (p ++ []) ≠ [] := List.cons_ne_nil _ _
  have hds : ∀ c ∈ d :: (p ++ []), Decimal.isDigit c = true := by
    rw [List.append_nil]
    exact List.forall_mem_cons.mpr ⟨hd, digits_of_readExponent_gather hread⟩
  split at heq
  · cases heq
    exact ⟨['+'], _, rfl, Or.inr (Or.inl rfl), hne, hds⟩
  · cases heq
    exact ⟨['-'], _, rfl, Or.inr (Or.inr rfl), hne, hds⟩
  · cases heq
    exact ⟨[], _, rfl, Or.inl rfl, hne, hds⟩

theorem exponentText_of_mark {n : Nat} {start : Int} {x : Double} {c : Char}
    (hc : (c = 'e' || c = 'E') = true) (h : readExponent negative n start t = .ok (x, [])) :
    ExponentText (c :: t) := by
  obtain ⟨s, ds, rfl, hs, hne, hds⟩ := exists_of_readExponent h
  rw [Bool.or_eq_true, decide_eq_true_eq, decide_eq_true_eq] at hc
  exact .present hc hs hne hds

theorem exponentText_of_readTail {n : Nat} {e : Int} {x : Double}
    (h : readTail negative n e t = .ok (x, [])) : ExponentText t := by
  cases t with
  | nil => exact .absent
  | cons c r =>
    rw [readTail] at h
    by_cases hc : (c = 'e' || c = 'E') = true
    · rw [if_pos hc] at h
      exact exponentText_of_mark hc h
    · rw [if_neg hc] at h
      obtain ⟨y, -, hdone⟩ := exists_of_bind h
      cases hdone

/-- Digits behind the point; there is one at least. -/
theorem exists_of_readFraction_gather {before : Int} {n after : Nat} {x : Double}
    (h : readFraction.gather negative before n after t = .ok (x, [])) :
    ∃ ds r, t = ds ++ r ∧ (∀ c ∈ ds, Decimal.isDigit c = true) ∧ ExponentText r ∧
      (after = 0 → ds ≠ []) := by
  induction t generalizing n after with
  | nil =>
    refine ⟨[], [], rfl, fun _ hc => absurd hc List.not_mem_nil, .absent, ?_⟩
    rintro rfl
    cases h
  | cons c r ih =>
    rw [readFraction.gather] at h
    by_cases hd : Decimal.isDigit c = true
    · rw [if_pos hd] at h
      by_cases hbig : gatherLimit < n * 10 + Decimal.digitValue c
      · -- the further digits are passed over
        rw [if_pos hbig] at h
        refine ⟨c :: r.takeWhile Decimal.isDigit, r.dropWhile Decimal.isDigit, ?_, ?_,
          exponentText_of_readTail h, fun _ => List.cons_ne_nil _ _⟩
        · rw [List.cons_append, List.takeWhile_append_dropWhile]
        · exact List.forall_mem_cons.mpr ⟨hd, fun d hd => List.mem_takeWhile_imp hd⟩
      · rw [if_neg hbig] at h
        obtain ⟨ds, r', rfl, hds, he, -⟩ := ih h
        exact ⟨c :: ds, r', rfl, List.forall_mem_cons.mpr ⟨hd, hds⟩, he,
          fun _ => List.cons_ne_nil _ _⟩
    · rw [if_neg hd] at h
      by_cases hafter : after = 0
      · rw [if_pos hafter] at h
        cases h
      · rw [if_neg hafter] at h
        exact ⟨[], c :: r, rfl, fun _ hc => absurd hc List.not_mem_nil,
          exponentText_of_readTail h, fun h0 => absurd h0 hafter⟩

theorem fractionText_of_point {before : Int} {n : Nat} {x : Double}
    (h : readFraction negative before n t = .ok (x, [])) : FractionText ('.' :: t) := by
  obtain ⟨ds, r, rfl, hds, he, hne⟩ := exists_of_readFraction_gather h
  exact .present (hne rfl) hds he

/-- The digits of a whole number that is too long to gather. -/
theorem exists_of_readLong {n e : Nat} {x : Double}
    (h : readLong negative n e t = .ok (x, [])) :
    ∃ ds r, t = ds ++ r ∧ (∀ c ∈ ds, Decimal.isDigit c = true) ∧ FractionText r := by
  induction t generalizing e with
  | nil => exact ⟨[], [], rfl, fun _ hc => absurd hc List.not_mem_nil, .absent .absent⟩
  | cons c r ih =>
    rw [readLong] at h
    by_cases hd : Decimal.isDigit c = true
    · rw [if_pos hd] at h
      obtain ⟨ds, r', rfl, hds, hr⟩ := ih h
      exact ⟨c :: ds, r', rfl, List.forall_mem_cons.mpr ⟨hd, hds⟩, hr⟩
    · rw [if_neg hd] at h
      refine ⟨[], c :: r, rfl, fun _ hc => absurd hc List.not_mem_nil, ?_⟩
      by_cases hp : c = '.'
      · rw [if_pos hp] at h
        rw [hp]
        exact fractionText_of_point h
      · rw [if_neg hp] at h
        exact .absent (exponentText_of_readTail h)

theorem fractionText_of_finishWhole {n : Nat} {x : Number}
    (h : finishWhole negative n t = .ok (x, [])) : FractionText t := by
  unfold finishWhole at h
  split at h
  · obtain ⟨⟨y, r'⟩, hf, hdone⟩ := exists_of_bind h
    cases hdone
    exact fractionText_of_point hf
  · next c r _ =>
    by_cases hc : (c = 'e' || c = 'E') = true
    · rw [if_pos hc] at h
      obtain ⟨⟨y, r'⟩, hf, hdone⟩ := exists_of_bind h
      cases hdone
      exact .absent (exponentText_of_mark hc hf)
    · rw [if_neg hc] at h
      cases h
  · exact .absent .absent

theorem exists_of_readWhole {n : Nat} {x : Number}
    (h : readWhole negative n t = .ok (x, [])) :
    ∃ ds r, t = ds ++ r ∧ (∀ c ∈ ds, Decimal.isDigit c = true) ∧ FractionText r := by
  induction t generalizing n with
  | nil => exact ⟨[], [], rfl, fun _ hc => absurd hc List.not_mem_nil, .absent .absent⟩
  | cons c r ih =>
    rw [readWhole] at h
    by_cases hd : Decimal.isDigit c = true
    · rw [if_pos hd] at h
      by_cases hbig : gatherLimit < n * 10 + Decimal.digitValue c
      · rw [if_pos hbig] at h
        obtain ⟨⟨y, r'⟩, hf, hdone⟩ := exists_of_bind h
        cases hdone
        exact exists_of_readLong hf
      · rw [if_neg hbig] at h
        obtain ⟨ds, r', rfl, hds, hr⟩ := ih h
        exact ⟨c :: ds, r', rfl, List.forall_mem_cons.mpr ⟨hd, hds⟩, hr⟩
    · rw [if_neg hd] at h
      exact ⟨[], c :: r, rfl, fun _ hc => absurd hc List.not_mem_nil,
        fractionText_of_finishWhole h⟩

/-- A number behind its sign. -/
theorem exists_of_readNumber {x : Number} (h : readNumber negative t = .ok (x, [])) :
    ∃ ds r, t = ds ++ r ∧ Whole ds ∧ FractionText r := by
  cases t with
  | nil => cases h
  | cons c r =>
    by_cases hz : c = '0'
    · subst hz
      have hfraction : FractionText r := by
        cases r with
        | nil => exact .absent .absent
        | cons d r =>
          simp only [readNumber] at h
          split at h
          · cases h
          · exact fractionText_of_finishWhole h
      exact ⟨['0'], r, rfl, Whole.zero, hfraction⟩
    · rw [readNumber_of_ne_zero r hz] at h
      by_cases hd : Decimal.isDigit c = true
      · rw [if_pos hd] at h
        obtain ⟨ds, r', rfl, hds, hr⟩ := exists_of_readWhole h
        exact ⟨c :: ds, r', rfl,
          ⟨List.forall_mem_cons.mpr ⟨hd, hds⟩, Or.inr ⟨c, ds, rfl, hz⟩⟩, hr⟩
      · rw [if_neg hd] at h
        cases h

end Parts

/-- **What the reader takes for a number is written as one.** -/
theorem Numeral.numberText {t : List Char} {n : Number} (h : Numeral t n) : NumberText t := by
  have hread := h.reads
  cases t with
  | nil => cases hread
  | cons c r =>
    by_cases hm : c = '-'
    · subst hm
      obtain ⟨ds, t, rfl, hds, ht⟩ := exists_of_readNumber (show readNumber true r = _ from hread)
      exact .mk (s := ['-']) (Or.inr rfl) hds ht
    · rw [readSigned_of_ne_minus r hm] at hread
      obtain ⟨ds, t, heq, hds, ht⟩ := exists_of_readNumber hread
      rw [heq]
      exact .mk (s := []) (Or.inl rfl) hds ht

end Polyshell.Json
