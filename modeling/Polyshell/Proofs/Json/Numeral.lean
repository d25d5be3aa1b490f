/-
  Numbers in a JSON text.

  A number is read character by character, and the reader learns that it has ended only from the
  character behind it.  The first half of this module says that nothing else about the rest of the
  text matters: what is read from a text by itself is read from it in front of any text that cannot
  continue a number (`readSigned_append`).  There is one lemma for each of the reader's functions,
  in the order in which they call one another.

  `Numeral t n` collects what users of a number need: its characters, and that it reads as `n`
  wherever it ends.  The second half shows it for the printed form of whole numbers.
-/
import Polyshell.Json.Printer
import Polyshell.Json.Reader
import Polyshell.Proofs.Decimal.Digits
import Mathlib.Data.List.TakeWhile

namespace Polyshell.Json

/-- The characters of numbers. -/
def isNumeralChar (c : Char) : Bool :=
  Decimal.isDigit c || c = '.' || c = 'e' || c = 'E' || c = '+' || c = '-'

/-- A text that a number in front of it cannot be continued with. -/
def EndsNumber (rest : List Char) : Prop := ∀ c r, rest = c :: r → isNumeralChar c = false

theorem EndsNumber.nil : EndsNumber [] := fun _ _ h => by cases h

/-- The four tests that the reader makes on the character behind a number. -/
theorem EndsNumber.head {c : Char} {r : List Char} (h : EndsNumber (c :: r)) :
    Decimal.isDigit c = false ∧ c ≠ '.' ∧ c ≠ 'e' ∧ c ≠ 'E' := by
  have hc := h c r rfl
  simp only [isNumeralChar, Bool.or_eq_false_iff, decide_eq_false_iff_not] at hc
  exact ⟨hc.1.1.1.1.1, hc.1.1.1.1.2, hc.1.1.1.2, hc.1.1.2⟩

/-! ## Reading in front of a rest -/

/-- `f` reads `t` in front of `rest` as it reads `t` alone, if that uses up all of `t`. -/
def ReadsOn {α : Type} (f : List Char → Except Fault (α × List Char)) (t rest : List Char) : Prop :=
  ∀ x, f t = .ok (x, []) → f (t ++ rest) = .ok (x, rest)

theorem scale_congr {n : Nat} {e : Int} {r r' : List Char} {x : Double}
    (h : scale n e r = .ok x) : scale n e r' = .ok x := by
  unfold scale at h ⊢
  simp only at h ⊢
  split
  · rename_i he
    rw [if_pos he] at h
    split
    · rename_i hz
      rwa [if_pos hz] at h
    · rename_i hz
      rw [if_neg hz] at h
      cases h
  · rename_i he
    rw [if_neg he] at h
    split
    · rename_i hp
      rw [if_pos hp] at h
      split
      · rename_i hi
        rw [if_pos hi] at h
        cases h
      · rename_i hi
        rwa [if_neg hi] at h
    · rename_i hp
      rwa [if_neg hp] at h

theorem finish_congr {negative down : Bool} {n e : Nat} {start : Int} {x : Double} {r r' : List Char}
    (h : readExponent.finish negative n start down e r = .ok (x, r)) :
    readExponent.finish negative n start down e r' = .ok (x, r') := by
  unfold readExponent.finish at h ⊢
  cases hs : scale n (if down = true then start - ↑e else start + ↑e) r with
  | error f => rw [hs] at h; cases h
  | ok y =>
    rw [hs] at h
    rw [scale_congr hs]
    cases h
    rfl

/-- What is read behind the digits of an exponent is left over. -/
theorem rest_of_finish {negative down : Bool} {n e : Nat} {start : Int} {x : Double} {r s : List Char}
    (h : readExponent.finish negative n start down e r = .ok (x, s)) : s = r := by
  unfold readExponent.finish at h
  cases hs : scale n (if down = true then start - ↑e else start + ↑e) r with
  | error f => rw [hs] at h; cases h
  | ok y => rw [hs] at h; cases h; rfl

variable {rest : List Char} (hrest : EndsNumber rest)
include hrest

theorem dropWhile_isDigit_append {t : List Char} (h : t.dropWhile Decimal.isDigit = []) :
    (t ++ rest).dropWhile Decimal.isDigit = rest := by
  rw [List.dropWhile_append_of_pos (List.dropWhile_eq_nil_iff.mp h)]
  cases rest with
  | nil => rfl
  | cons c r => rw [List.dropWhile_cons, hrest.head.1, if_neg Bool.false_ne_true]

theorem readExponent_gather_append {negative down : Bool} {n : Nat} {start : Int} (t : List Char) :
    ∀ e, ReadsOn (readExponent.gather negative n start down e) t rest := by
  induction t with
  | nil =>
    intro e x h
    rw [readExponent.gather] at h
    cases rest with
    | nil => rw [List.append_nil, readExponent.gather]; exact h
    | cons c r =>
      rw [List.nil_append, readExponent.gather, hrest.head.1, if_neg Bool.false_ne_true]
      exact finish_congr h
  | cons c t ih =>
    intro e x h
    rw [readExponent.gather] at h
    rw [List.cons_append, readExponent.gather]
    by_cases hd : Decimal.isDigit c = true
    · rw [if_pos hd] at h ⊢
      by_cases hbig : 2147483647 < e * 10 + Decimal.digitValue c
      · rw [if_pos hbig] at h ⊢
        -- an exponent beyond the limit passes over its other digits, and so reaches the rest too
        by_cases hz : (decide (n ≠ 0) && !down) = true
        · rw [if_pos hz] at h; cases h
        · rw [if_neg hz] at h ⊢
          injection h with h
          injection h with hx ht
          rw [dropWhile_isDigit_append hrest ht, hx]
      · rw [if_neg hbig] at h ⊢
        exact ih _ x h
    · rw [if_neg hd] at h
      exact absurd (rest_of_finish h) (List.cons_ne_nil c t).symm

/-- The digits of an exponent, behind its sign. -/
theorem exponentDigits_append {negative : Bool} {n : Nat} {start : Int} (down : Bool)
    (ds : List Char) :
    ReadsOn (fun s => match s with
      | [] => failAt .eofInValue []
      | c :: r =>
        if Decimal.isDigit c then readExponent.gather negative n start down (Decimal.digitValue c) r
        else failPast .invalidNumber (c :: r)) ds rest := by
  intro x h
  cases ds with
  | nil => cases h
  | cons c r =>
    simp only [List.cons_append] at h ⊢
    by_cases hd : Decimal.isDigit c = true
    · rw [if_pos hd] at h ⊢
      exact readExponent_gather_append hrest r _ x h
    · rw [if_neg hd] at h; cases h

omit hrest in
theorem readExponent_unsigned {negative : Bool} {n : Nat} {start : Int} {c : Char} (r : List Char)
    (hp : c ≠ '+') (hm : c ≠ '-') :
    readExponent negative n start (c :: r) =
      if Decimal.isDigit c then readExponent.gather negative n start false (Decimal.digitValue c) r
      else failPast .invalidNumber (c :: r) := by
  unfold readExponent
  split
  next down ds h =>
  split at h
  · exact absurd (List.cons.inj ‹_›).1 hp
  · exact absurd (List.cons.inj ‹_›).1 hm
  · cases h
    rfl

theorem readExponent_append {negative : Bool} {n : Nat} {start : Int} (t : List Char) :
    ReadsOn (readExponent negative n start) t rest := by
  intro x h
  cases t with
  | nil => cases h
  | cons c t =>
    by_cases hp : c = '+'
    · subst hp; exact exponentDigits_append hrest false t x h
    by_cases hm : c = '-'
    · subst hm; exact exponentDigits_append hrest true t x h
    rw [readExponent_unsigned t hp hm] at h
    rw [List.cons_append, readExponent_unsigned _ hp hm]
    exact exponentDigits_append hrest false (c :: t) x h

theorem readTail_append {negative : Bool} {n : Nat} {e : Int} (t : List Char) :
    ReadsOn (readTail negative n e) t rest := by
  intro x h
  cases t with
  | nil =>
    simp only [readTail] at h
    cases hs : scale n e [] with
    | error f => rw [hs] at h; cases h
    | ok y =>
      rw [hs] at h
      cases h
      cases rest with
      | nil => simp only [List.append_nil, readTail, hs]; rfl
      | cons c r =>
        have hne : ¬ ((c = 'e' || c = 'E') = true) := by simp [hrest.head.2.2.1, hrest.head.2.2.2]
        simp only [List.nil_append, readTail, if_neg hne, scale_congr hs]
        rfl
  | cons c t =>
    simp only [List.cons_append, readTail] at h ⊢
    by_cases he : (c = 'e' || c = 'E') = true
    · rw [if_pos he] at h ⊢
      exact readExponent_append hrest t x h
    · rw [if_neg he] at h
      cases hs : scale n e (c :: t) with
      | error f => rw [hs] at h; cases h
      | ok y => rw [hs] at h; cases h

/-- Digits that are passed over before the end of a number. -/
theorem digitsPassed_append {negative : Bool} {n : Nat} {e : Int} (t : List Char) :
    ReadsOn (fun s => readTail negative n e (s.dropWhile Decimal.isDigit)) t rest := by
  intro x h
  have hsplit : (t ++ rest).dropWhile Decimal.isDigit = t.dropWhile Decimal.isDigit ++ rest := by
    by_cases hall : t.dropWhile Decimal.isDigit = []
    · rw [dropWhile_isDigit_append hrest hall, hall, List.nil_append]
    · rw [List.dropWhile_append, if_neg (by simpa using hall)]
  show readTail negative n e ((t ++ rest).dropWhile Decimal.isDigit) = _
  rw [hsplit]
  exact readTail_append hrest _ x h

theorem readFraction_gather_append {negative : Bool} {before : Int} (t : List Char) :
    ∀ n after, ReadsOn (readFraction.gather negative before n after) t rest := by
  induction t with
  | nil =>
    intro n after x h
    simp only [readFraction.gather] at h
    by_cases ha : after = 0
    · rw [if_pos ha] at h; cases h
    · rw [if_neg ha] at h
      have htail := readTail_append hrest [] x h
      cases rest with
      | nil => rw [List.append_nil, readFraction.gather, if_neg ha]; exact h
      | cons c r =>
        rw [List.nil_append, readFraction.gather, hrest.head.1, if_neg Bool.false_ne_true, if_neg ha]
        exact htail
  | cons c t ih =>
    intro n after x h
    rw [readFraction.gather] at h
    rw [List.cons_append, readFraction.gather]
    by_cases hd : Decimal.isDigit c = true
    · rw [if_pos hd] at h ⊢
      by_cases hbig : gatherLimit < n * 10 + Decimal.digitValue c
      · rw [if_pos hbig] at h ⊢
        exact digitsPassed_append hrest t x h
      · rw [if_neg hbig] at h ⊢
        exact ih _ _ x h
    · rw [if_neg hd] at h ⊢
      by_cases ha : after = 0
      · rw [if_pos ha] at h; cases h
      · rw [if_neg ha] at h ⊢
        exact readTail_append hrest (c :: t) x h

theorem readLong_append {negative : Bool} {n : Nat} (t : List Char) :
    ∀ e, ReadsOn (readLong negative n e) t rest := by
  induction t with
  | nil =>
    intro e x h
    rw [readLong] at h
    have htail := readTail_append hrest [] x h
    cases rest with
    | nil => rw [List.append_nil, readLong]; exact h
    | cons c r =>
      rw [List.nil_append, readLong, hrest.head.1, if_neg Bool.false_ne_true, if_neg hrest.head.2.1]
      exact htail
  | cons c t ih =>
    intro e x h
    rw [readLong] at h
    rw [List.cons_append, readLong]
    by_cases hd : Decimal.isDigit c = true
    · rw [if_pos hd] at h ⊢
      exact ih _ x h
    · rw [if_neg hd] at h ⊢
      by_cases hp : c = '.'
      · rw [if_pos hp] at h ⊢
        exact readFraction_gather_append hrest t _ _ x h
      · rw [if_neg hp] at h ⊢
        exact readTail_append hrest (c :: t) x h

/-- A whole number that ends here is that number. -/
theorem finishWhole_of_ends {negative : Bool} {n : Nat} :
    finishWhole negative n rest = .ok (finishWhole.whole negative n, rest) := by
  cases rest with
  | nil => rfl
  | cons c r =>
    obtain ⟨-, hp, he, hE⟩ := hrest.head
    unfold finishWhole
    split
    · exact absurd (List.cons.inj ‹_›).1 hp
    · rename_i heq
      obtain ⟨rfl, rfl⟩ := List.cons.inj heq
      rw [if_neg (by simp [he, hE])]
    · cases ‹c :: r = []›

theorem finishWhole_append {negative : Bool} {n : Nat} (t : List Char) :
    ReadsOn (finishWhole negative n) t rest := by
  intro x h
  cases t with
  | nil =>
    cases h
    exact finishWhole_of_ends hrest
  | cons c t =>
    by_cases hp : c = '.'
    · subst hp
      simp only [List.cons_append, finishWhole] at h ⊢
      cases hf : readFraction negative 0 n t with
      | error f => rw [hf] at h; cases h
      | ok p =>
        obtain ⟨y, r⟩ := p
        rw [hf] at h
        cases h
        rw [show readFraction negative 0 n (t ++ rest) = .ok (y, rest) from
          readFraction_gather_append hrest t n 0 y hf]
        rfl
    · by_cases he : (c = 'e' || c = 'E') = true
      · simp only [List.cons_append, finishWhole, if_pos he] at h ⊢
        cases hf : readExponent negative n 0 t with
        | error f => rw [hf] at h; cases h
        | ok p =>
          obtain ⟨y, r⟩ := p
          rw [hf] at h
          cases h
          rw [readExponent_append hrest t y hf]
          rfl
      · -- otherwise the number ended in front of `c`, and did not use it up
        simp only [finishWhole, if_neg he] at h
        cases h

theorem readWhole_append {negative : Bool} (t : List Char) :
    ∀ n, ReadsOn (readWhole negative n) t rest := by
  induction t with
  | nil =>
    intro n x h
    rw [readWhole] at h
    have hend := finishWhole_append hrest [] x h
    cases rest with
    | nil => rw [List.append_nil, readWhole]; exact h
    | cons c r =>
      rw [List.nil_append, readWhole, hrest.head.1, if_neg Bool.false_ne_true]
      exact hend
  | cons c t ih =>
    intro n x h
    rw [readWhole] at h
    rw [List.cons_append, readWhole]
    by_cases hd : Decimal.isDigit c = true
    · rw [if_pos hd] at h ⊢
      by_cases hbig : gatherLimit < n * 10 + Decimal.digitValue c
      · rw [if_pos hbig] at h ⊢
        cases hf : readLong negative n 0 (c :: t) with
        | error f => rw [hf] at h; cases h
        | ok p =>
          obtain ⟨y, r⟩ := p
          rw [hf] at h
          cases h
          rw [show readLong negative n 0 (c :: (t ++ rest)) = .ok (y, rest) from
            readLong_append hrest (c :: t) 0 y hf]
          rfl
      · rw [if_neg hbig] at h ⊢
        exact ih _ x h
    · rw [if_neg hd] at h ⊢
      exact finishWhole_append hrest (c :: t) x h

omit hrest in
theorem readNumber_of_ne_zero {negative : Bool} {c : Char} (r : List Char) (h : c ≠ '0') :
    readNumber negative (c :: r) =
      if Decimal.isDigit c then readWhole negative (Decimal.digitValue c) r
      else failPast .invalidNumber (c :: r) := by
  unfold readNumber
  split <;> simp_all

theorem readNumber_append {negative : Bool} (t : List Char) :
    ReadsOn (readNumber negative) t rest := by
  intro x h
  cases t with
  | nil => cases h
  | cons c t =>
    by_cases hz : c = '0'
    · subst hz
      cases t with
      | nil =>
        cases h
        cases rest with
        | nil => rfl
        | cons c r =>
          simp only [List.cons_append, List.nil_append, readNumber]
          rw [hrest.head.1, if_neg Bool.false_ne_true]
          exact finishWhole_of_ends hrest
      | cons d t =>
        simp only [List.cons_append, readNumber] at h ⊢
        by_cases hd : Decimal.isDigit d = true
        · rw [if_pos hd] at h; cases h
        · rw [if_neg hd] at h ⊢
          exact finishWhole_append hrest (d :: t) x h
    · rw [readNumber_of_ne_zero t hz] at h
      rw [List.cons_append, readNumber_of_ne_zero _ hz]
      by_cases hd : Decimal.isDigit c = true
      · rw [if_pos hd] at h ⊢
        exact readWhole_append hrest t _ x h
      · rw [if_neg hd] at h; cases h

omit hrest

/-! ## Numbers with their sign -/

/-- A number from its sign on. -/
def readSigned : List Char → Except Fault (Number × List Char)
  | '-' :: r => readNumber true r
  | s => readNumber false s

theorem readSigned_of_ne_minus {c : Char} (r : List Char) (h : c ≠ '-') :
    readSigned (c :: r) = readNumber false (c :: r) := by
  unfold readSigned
  split <;> simp_all

/-- What a text alone reads as, it reads as in front of any text that ends it. -/
theorem readSigned_append (hrest : EndsNumber rest) (t : List Char) : ReadsOn readSigned t rest := by
  intro x h
  cases t with
  | nil => cases h
  | cons c t =>
    by_cases hm : c = '-'
    · subst hm; exact readNumber_append hrest t x h
    · rw [readSigned_of_ne_minus t hm] at h
      rw [List.cons_append, readSigned_of_ne_minus _ hm]
      exact readNumber_append hrest (c :: t) x h

/-- `t` is a number that reads as `n`. -/
structure Numeral (t : List Char) (n : Number) : Prop where
  chars : ∀ c ∈ t, isNumeralChar c = true
  reads : readSigned t = .ok (n, [])

namespace Numeral

variable {t : List Char} {n : Number}

/-- It starts with a sign or a digit. -/
theorem head (h : Numeral t n) : ∃ c r, t = c :: r ∧ (c = '-' ∨ Decimal.isDigit c = true) := by
  have hreads := h.reads
  cases t with
  | nil => cases hreads
  | cons c r =>
    refine ⟨c, r, rfl, ?_⟩
    by_cases hm : c = '-'
    · exact Or.inl hm
    by_cases hz : c = '0'
    · exact Or.inr (by rw [hz]; rfl)
    rw [readSigned_of_ne_minus r hm, readNumber_of_ne_zero r hz] at hreads
    by_cases hd : Decimal.isDigit c = true
    · exact Or.inr hd
    · rw [if_neg hd] at hreads; cases hreads

theorem ne_nil (h : Numeral t n) : t ≠ [] := by
  obtain ⟨c, r, ht, -⟩ := h.head
  exact ht ▸ List.cons_ne_nil c r

end Numeral

theorem isNumeralChar_of_isDigit {c : Char} (h : Decimal.isDigit c = true) :
    isNumeralChar c = true := by
  simp [isNumeralChar, h]

/-! ## Whole numbers -/

/-- A text that does not begin with a digit. -/
def EndsDigits (rest : List Char) : Prop := ∀ c r, rest = c :: r → Decimal.isDigit c = false

theorem EndsDigits.nil : EndsDigits [] := fun _ _ h => by cases h

theorem EndsDigits.cons {c : Char} (h : Decimal.isDigit c = false) (r : List Char) :
    EndsDigits (c :: r) := by
  intro d s he
  obtain ⟨rfl, -⟩ := List.cons.inj he
  exact h

/-- Digits that fit are gathered to their value, up to what is no digit. -/
theorem readWhole_digits (negative : Bool) {rest : List Char} (hrest : EndsDigits rest)
    (ds : List Char) :
    ∀ n, (∀ c ∈ ds, Decimal.isDigit c = true) → Decimal.valueFrom n ds ≤ gatherLimit →
      readWhole negative n (ds ++ rest) = finishWhole negative (Decimal.valueFrom n ds) rest := by
  induction ds with
  | nil =>
    intro n _ _
    cases rest with
    | nil => rw [List.append_nil, readWhole, Decimal.valueFrom_nil]
    | cons c r =>
      rw [List.nil_append, readWhole, hrest c r rfl, if_neg Bool.false_ne_true,
        Decimal.valueFrom_nil]
  | cons c ds ih =>
    intro n hds hfit
    rw [Decimal.valueFrom_cons] at hfit
    have hstep := Decimal.le_valueFrom (10 * n + Decimal.digitValue c) ds
    rw [List.cons_append, readWhole, if_pos (hds c List.mem_cons_self), if_neg (by omega),
      Nat.mul_comm n 10, Decimal.valueFrom_cons]
    exact ih _ (fun d hd => hds d (List.mem_cons_of_mem c hd)) hfit

/-- The digits of a number that fits read as it. -/
theorem readNumber_digits (negative : Bool) {n : Nat} (h : n ≤ gatherLimit) :
    readNumber negative (Decimal.digits n) = .ok (finishWhole.whole negative n, []) := by
  rcases Nat.eq_zero_or_pos n with rfl | hpos
  · rfl
  · obtain ⟨c, r, he, hc, hz⟩ := Decimal.head_digits hpos
    have hall : ∀ d ∈ r, Decimal.isDigit d = true := fun d hd =>
      Decimal.isDigit_of_mem_digits (n := n) (he ▸ List.mem_cons_of_mem c hd)
    have hvalue : Decimal.valueFrom (Decimal.digitValue c) r = n := by
      have hv := Decimal.value_digits n
      rwa [he, Decimal.value, Decimal.valueFrom_cons, Nat.mul_zero, Nat.zero_add] at hv
    have hread := readWhole_digits negative EndsDigits.nil r (Decimal.digitValue c) hall (by omega)
    rw [List.append_nil, hvalue] at hread
    rw [he, readNumber_of_ne_zero r hz, if_pos hc, hread]
    rfl

/-- The text of a whole number is made of the characters of numbers. -/
theorem isNumeralChar_of_mem_intText {i : Int} {c : Char} (h : c ∈ intText i) :
    isNumeralChar c = true := by
  have hdigit : ∀ {n : Nat}, c ∈ Decimal.digits n → isNumeralChar c = true := fun hc =>
    isNumeralChar_of_isDigit (Decimal.isDigit_of_mem_digits hc)
  rw [intText] at h
  split at h
  · rcases List.mem_cons.mp h with rfl | h
    · rfl
    · exact hdigit h
  · exact hdigit h

/-- It starts with a sign or a digit. -/
theorem head_intText (i : Int) :
    ∃ c r, intText i = c :: r ∧ (c = '-' ∨ Decimal.isDigit c = true) := by
  rw [intText]
  split
  · exact ⟨_, _, rfl, Or.inl rfl⟩
  · obtain ⟨c, r, hcons⟩ := List.exists_cons_of_ne_nil (Decimal.digits_ne_nil i.natAbs)
    have hmem : c ∈ Decimal.digits i.natAbs := hcons ▸ List.mem_cons_self
    exact ⟨c, r, hcons, Or.inr (Decimal.isDigit_of_mem_digits hmem)⟩

/-- A whole number that a word of 64 bits holds, signed or not, is printed as a numeral of it. -/
theorem numeral_intText {i : Int} (hlo : Decimal.minInt64 ≤ i) (hhi : i ≤ Decimal.maxWord64) :
    Numeral (intText i) (.int i) := by
  refine ⟨fun _ => isNumeralChar_of_mem_intText, ?_⟩
  simp only [Decimal.minInt64, Decimal.maxWord64] at hlo hhi
  unfold intText
  by_cases hneg : i < 0
  · rw [if_pos hneg]
    have hfit : i.natAbs ≤ gatherLimit := by simp only [gatherLimit, Decimal.maxWord64]; omega
    have hsmall : ¬ (i.natAbs = 0 || Nat.pow 2 63 < i.natAbs) = true := by
      simp only [Bool.or_eq_true, decide_eq_true_eq, show Nat.pow 2 63 = 9223372036854775808 from rfl]
      omega
    show readNumber true (Decimal.digits i.natAbs) = _
    rw [readNumber_digits true hfit]
    simp only [finishWhole.whole, Bool.not_true, if_neg Bool.false_ne_true, if_neg hsmall]
    rw [show (-(i.natAbs : Int)) = i by omega]
  · rw [if_neg hneg]
    have hfit : i.natAbs ≤ gatherLimit := by simp only [gatherLimit, Decimal.maxWord64]; omega
    have hread := readNumber_digits false hfit
    obtain ⟨c, r, he⟩ := List.exists_cons_of_ne_nil (Decimal.digits_ne_nil i.natAbs)
    have hc : Decimal.isDigit c = true :=
      Decimal.isDigit_of_mem_digits (n := i.natAbs) (he ▸ List.mem_cons_self)
    rw [he] at hread ⊢
    rw [readSigned_of_ne_minus r (by rintro rfl; exact absurd hc (by decide)), hread]
    simp only [finishWhole.whole, Bool.not_false, if_true]
    rw [show ((i.natAbs : Nat) : Int) = i by omega]

end Polyshell.Json
