/-
  What the reader takes for a number, it reads as that number wherever it stands.

  `readSigned_append` follows a number that is known into a text.  Here is the way back: whatever the
  reader reads from the front of a text is a run of the characters of numbers, and reads alike by
  itself (`readSigned_takes`).  As there, one lemma for each of the reader's functions, in the order
  in which they call one another.  Each goes through the branches of its function: what was read in
  front of a character that ended it is read in front of the end of the text too.
-/
import Polyshell.Proofs.Except
import Polyshell.Proofs.Json.Spelling

namespace Polyshell.Json

/-- What `f` reads from the front of a text is made of the characters of numbers, and `f` reads it alike
    by itself. -/
def Takes {α : Type} (f : List Char → Except Fault (α × List Char)) : Prop :=
  ∀ s x rest, f s = .ok (x, rest) →
    ∃ p, s = p ++ rest ∧ (∀ c ∈ p, isNumeralChar c = true) ∧ f p = .ok (x, [])

section Takes

variable {α : Type} {f : List Char → Except Fault (α × List Char)} {x : α} {s rest : List Char}

/-- Nothing was read, as at the end of the text. -/
theorem takes_nothing (h : f [] = .ok (x, [])) :
    ∃ p, s = p ++ s ∧ (∀ c ∈ p, isNumeralChar c = true) ∧ f p = .ok (x, []) :=
  ⟨[], rfl, fun _ hc => absurd hc List.not_mem_nil, h⟩

/-- Nothing is left of the empty text. -/
theorem Takes.rest_eq_nil (hf : Takes f) (h : f [] = .ok (x, rest)) : rest = [] := by
  obtain ⟨p, hp, -, -⟩ := hf [] x rest h
  exact (List.append_eq_nil_iff.mp hp.symm).2

/-- Numeral characters, with one more in front. -/
theorem forall_numeral_cons {c : Char} {p : List Char} (hc : isNumeralChar c = true)
    (hp : ∀ d ∈ p, isNumeralChar d = true) : ∀ d ∈ c :: p, isNumeralChar d = true :=
  List.forall_mem_cons.mpr ⟨hc, hp⟩

theorem isNumeralChar_of_mark {c : Char} (h : (c = 'e' || c = 'E') = true) :
    isNumeralChar c = true := by
  rw [Bool.or_eq_true, decide_eq_true_eq, decide_eq_true_eq] at h
  rcases h with rfl | rfl <;> rfl

end Takes

section Parts

variable {negative : Bool} {n : Nat}

theorem readExponent_gather_takes {down : Bool} {start : Int} (e : Nat) :
    Takes (readExponent.gather negative n start down e) := by
  intro s
  induction s generalizing e with
  | nil =>
    intro x rest h
    rw [readExponent.gather] at h
    obtain rfl := rest_of_finish h
    exact takes_nothing h
  | cons c r ih =>
    intro x rest h
    rw [readExponent.gather] at h
    by_cases hd : Decimal.isDigit c = true
    · have hc := isNumeralChar_of_isDigit hd
      rw [if_pos hd] at h
      by_cases hbig : 2147483647 < e * 10 + Decimal.digitValue c
      · rw [if_pos hbig] at h
        by_cases hz : (decide (n ≠ 0) && !down) = true
        · rw [if_pos hz] at h
          cases h
        · -- the further digits are passed over
          rw [if_neg hz] at h
          cases h
          have hdigits : ∀ d ∈ r.takeWhile Decimal.isDigit, Decimal.isDigit d = true := fun d hd =>
            List.mem_takeWhile_imp hd
          refine ⟨c :: r.takeWhile Decimal.isDigit, ?_, ?_, ?_⟩
          · rw [List.cons_append, List.takeWhile_append_dropWhile]
          · exact forall_numeral_cons hc fun d hd => isNumeralChar_of_isDigit (hdigits d hd)
          · rw [readExponent.gather, if_pos hd, if_pos hbig, if_neg hz,
              List.dropWhile_eq_nil_iff.mpr hdigits]
      · rw [if_neg hbig] at h
        obtain ⟨p, rfl, hp, hread⟩ := ih _ x rest h
        refine ⟨c :: p, rfl, forall_numeral_cons hc hp, ?_⟩
        rw [readExponent.gather, if_pos hd, if_neg hbig]
        exact hread
    · rw [if_neg hd] at h
      obtain rfl := rest_of_finish h
      exact takes_nothing (finish_congr h)

/-- Behind the sign of an exponent there is a digit, and what its digits are followed by is left
    over. -/
theorem exponentDigits_takes {start : Int} (down : Bool) (ds : List Char) {x : Double}
    {rest : List Char}
    (h : (match ds with
      | [] => failAt .eofInValue []
      | c :: r =>
        if Decimal.isDigit c then readExponent.gather negative n start down (Decimal.digitValue c) r
        else failPast .invalidNumber (c :: r)) = .ok (x, rest)) :
    ∃ d p, ds = d :: (p ++ rest) ∧ Decimal.isDigit d = true ∧
      (∀ c ∈ p, isNumeralChar c = true) ∧
      readExponent.gather negative n start down (Decimal.digitValue d) p = .ok (x, []) := by
  cases ds with
  | nil => cases h
  | cons d r =>
    by_cases hd : Decimal.isDigit d = true
    · simp only [if_pos hd] at h
      obtain ⟨p, rfl, hp, hread⟩ := readExponent_gather_takes _ r x rest h
      exact ⟨d, p, rfl, hd, hp, hread⟩
    · simp only [if_neg hd] at h
      cases h

theorem readExponent_takes {start : Int} : Takes (readExponent negative n start) := by
  intro s x rest h
  cases s with
  | nil => cases h
  | cons c r =>
    by_cases hp : c = '+'
    · subst hp
      obtain ⟨d, p, rfl, hd, hnum, hread⟩ := exponentDigits_takes false r h
      refine ⟨'+' :: d :: p, rfl, forall_numeral_cons rfl
        (forall_numeral_cons (isNumeralChar_of_isDigit hd) hnum), ?_⟩
      simp only [readExponent, if_pos hd]
      exact hread
    by_cases hm : c = '-'
    · subst hm
      obtain ⟨d, p, rfl, hd, hnum, hread⟩ := exponentDigits_takes true r h
      refine ⟨'-' :: d :: p, rfl, forall_numeral_cons rfl
        (forall_numeral_cons (isNumeralChar_of_isDigit hd) hnum), ?_⟩
      simp only [readExponent, if_pos hd]
      exact hread
    rw [readExponent_unsigned r hp hm] at h
    obtain ⟨d, p, heq, hd, hnum, hread⟩ := exponentDigits_takes false (c :: r) h
    obtain ⟨rfl, rfl⟩ := List.cons.inj heq
    refine ⟨c :: p, rfl, forall_numeral_cons (isNumeralChar_of_isDigit hd) hnum, ?_⟩
    rw [readExponent_unsigned p hp hm, if_pos hd]
    exact hread

theorem readTail_takes {e : Int} : Takes (readTail negative n e) := by
  intro s x rest h
  have hends : ∀ s, (do return (withSign negative (← scale n e s), s)) = Except.ok (x, rest) →
      s = rest ∧ readTail negative n e [] = .ok (x, []) := by
    intro s hs
    obtain ⟨y, hscale, hdone⟩ := exists_of_bind hs
    cases hdone
    refine ⟨rfl, ?_⟩
    rw [readTail, scale_congr hscale]
    rfl
  cases s with
  | nil =>
    obtain ⟨rfl, hread⟩ := hends [] h
    exact takes_nothing hread
  | cons c r =>
    rw [readTail] at h
    by_cases he : (c = 'e' || c = 'E') = true
    · rw [if_pos he] at h
      obtain ⟨p, rfl, hp, hread⟩ := readExponent_takes r x rest h
      refine ⟨c :: p, rfl, forall_numeral_cons (isNumeralChar_of_mark he) hp, ?_⟩
      rw [readTail, if_pos he]
      exact hread
    · rw [if_neg he] at h
      obtain ⟨rfl, hread⟩ := hends (c :: r) h
      exact takes_nothing hread

/-- Digits that are passed over before the end of a number. -/
theorem digitsPassed_takes {e : Int} :
    Takes fun s => readTail negative n e (s.dropWhile Decimal.isDigit) := by
  intro s x rest h
  obtain ⟨p, hp, hnum, hread⟩ := readTail_takes _ x rest h
  have hdigits : ∀ d ∈ s.takeWhile Decimal.isDigit, Decimal.isDigit d = true := fun d hd =>
    List.mem_takeWhile_imp hd
  -- what is read behind the digits does not begin with one
  have hstop : p.dropWhile Decimal.isDigit = p := by
    cases p with
    | nil => rfl
    | cons d p =>
      have hhead := List.head?_dropWhile_not Decimal.isDigit s
      rw [hp, List.cons_append, List.head?_cons] at hhead
      rw [List.dropWhile_cons, hhead, if_neg Bool.false_ne_true]
  refine ⟨s.takeWhile Decimal.isDigit ++ p, ?_, ?_, ?_⟩
  · rw [List.append_assoc, ← hp, List.takeWhile_append_dropWhile]
  · intro d hd
    rcases List.mem_append.mp hd with hd | hd
    · exact isNumeralChar_of_isDigit (hdigits d hd)
    · exact hnum d hd
  · show readTail negative n e ((s.takeWhile Decimal.isDigit ++ p).dropWhile Decimal.isDigit) = _
    rw [List.dropWhile_append_of_pos hdigits, hstop]
    exact hread

theorem readFraction_gather_takes {before : Int} (n after : Nat) :
    Takes (readFraction.gather negative before n after) := by
  intro s
  induction s generalizing n after with
  | nil =>
    intro x rest h
    have hread := h
    rw [readFraction.gather] at h
    by_cases ha : after = 0
    · rw [if_pos ha] at h
      cases h
    · rw [if_neg ha] at h
      obtain rfl := readTail_takes.rest_eq_nil h
      exact takes_nothing hread
  | cons c r ih =>
    intro x rest h
    rw [readFraction.gather] at h
    by_cases hd : Decimal.isDigit c = true
    · have hc := isNumeralChar_of_isDigit hd
      rw [if_pos hd] at h
      by_cases hbig : gatherLimit < n * 10 + Decimal.digitValue c
      · rw [if_pos hbig] at h
        obtain ⟨p, rfl, hp, hread⟩ := digitsPassed_takes r x rest h
        refine ⟨c :: p, rfl, forall_numeral_cons hc hp, ?_⟩
        rw [readFraction.gather, if_pos hd, if_pos hbig]
        exact hread
      · rw [if_neg hbig] at h
        obtain ⟨p, rfl, hp, hread⟩ := ih _ _ x rest h
        refine ⟨c :: p, rfl, forall_numeral_cons hc hp, ?_⟩
        rw [readFraction.gather, if_pos hd, if_neg hbig]
        exact hread
    · rw [if_neg hd] at h
      by_cases ha : after = 0
      · rw [if_pos ha] at h
        cases h
      · rw [if_neg ha] at h
        obtain ⟨p, hp, hnum, hread⟩ := readTail_takes _ x rest h
        refine ⟨p, hp, hnum, ?_⟩
        cases p with
        | nil =>
          rw [readFraction.gather, if_neg ha]
          exact hread
        | cons d p =>
          obtain ⟨rfl, -⟩ := List.cons.inj hp
          rw [readFraction.gather, if_neg hd, if_neg ha]
          exact hread

theorem readFraction_takes {before : Int} : Takes (readFraction negative before n) :=
  readFraction_gather_takes n 0

theorem readLong_takes (e : Nat) : Takes (readLong negative n e) := by
  intro s
  induction s generalizing e with
  | nil =>
    intro x rest h
    have hread := h
    rw [readLong] at h
    obtain rfl := readTail_takes.rest_eq_nil h
    exact takes_nothing hread
  | cons c r ih =>
    intro x rest h
    rw [readLong] at h
    by_cases hd : Decimal.isDigit c = true
    · rw [if_pos hd] at h
      obtain ⟨p, rfl, hp, hread⟩ := ih _ x rest h
      refine ⟨c :: p, rfl, forall_numeral_cons (isNumeralChar_of_isDigit hd) hp, ?_⟩
      rw [readLong, if_pos hd]
      exact hread
    · rw [if_neg hd] at h
      by_cases hp : c = '.'
      · rw [if_pos hp] at h
        obtain ⟨p, rfl, hnum, hread⟩ := readFraction_takes r x rest h
        refine ⟨c :: p, rfl, forall_numeral_cons (by rw [hp]; rfl) hnum, ?_⟩
        rw [readLong, if_neg hd, if_pos hp]
        exact hread
      · rw [if_neg hp] at h
        obtain ⟨p, heq, hnum, hread⟩ := readTail_takes _ x rest h
        refine ⟨p, heq, hnum, ?_⟩
        cases p with
        | nil =>
          rw [readLong]
          exact hread
        | cons d p =>
          obtain ⟨rfl, -⟩ := List.cons.inj heq
          rw [readLong, if_neg hd, if_neg hp]
          exact hread

theorem finishWhole_takes : Takes (finishWhole negative n) := by
  intro s x rest h
  cases s with
  | nil =>
    cases h
    exact takes_nothing rfl
  | cons c r =>
    by_cases hp : c = '.'
    · subst hp
      simp only [finishWhole] at h
      obtain ⟨⟨y, r'⟩, hf, hdone⟩ := exists_of_bind h
      cases hdone
      obtain ⟨p, rfl, hnum, hread⟩ := readFraction_takes _ _ _ hf
      refine ⟨'.' :: p, rfl, forall_numeral_cons rfl hnum, ?_⟩
      simp only [finishWhole, hread]
      rfl
    · by_cases he : (c = 'e' || c = 'E') = true
      · simp only [finishWhole, if_pos he] at h
        obtain ⟨⟨y, r'⟩, hf, hdone⟩ := exists_of_bind h
        cases hdone
        obtain ⟨p, rfl, hnum, hread⟩ := readExponent_takes _ _ _ hf
        refine ⟨c :: p, rfl, forall_numeral_cons (isNumeralChar_of_mark he) hnum, ?_⟩
        simp only [finishWhole, if_pos he, hread]
        rfl
      · simp only [finishWhole, if_neg he] at h
        cases h
        exact takes_nothing rfl

theorem readWhole_takes (n : Nat) : Takes (readWhole negative n) := by
  intro s
  induction s generalizing n with
  | nil =>
    intro x rest h
    have hread := h
    rw [readWhole] at h
    obtain rfl := finishWhole_takes.rest_eq_nil h
    exact takes_nothing hread
  | cons c r ih =>
    intro x rest h
    rw [readWhole] at h
    by_cases hd : Decimal.isDigit c = true
    · have hc := isNumeralChar_of_isDigit hd
      rw [if_pos hd] at h
      by_cases hbig : gatherLimit < n * 10 + Decimal.digitValue c
      · rw [if_pos hbig, readLong, if_pos hd] at h
        obtain ⟨⟨y, r'⟩, hf, hdone⟩ := exists_of_bind h
        cases hdone
        obtain ⟨p, rfl, hnum, hread⟩ := readLong_takes _ _ _ _ hf
        refine ⟨c :: p, rfl, forall_numeral_cons hc hnum, ?_⟩
        rw [readWhole, if_pos hd, if_pos hbig, readLong, if_pos hd, hread]
        rfl
      · rw [if_neg hbig] at h
        obtain ⟨p, rfl, hnum, hread⟩ := ih _ x rest h
        refine ⟨c :: p, rfl, forall_numeral_cons hc hnum, ?_⟩
        rw [readWhole, if_pos hd, if_neg hbig]
        exact hread
    · rw [if_neg hd] at h
      obtain ⟨p, heq, hnum, hread⟩ := finishWhole_takes _ x rest h
      refine ⟨p, heq, hnum, ?_⟩
      cases p with
      | nil =>
        rw [readWhole]
        exact hread
      | cons d p =>
        obtain ⟨rfl, -⟩ := List.cons.inj heq
        rw [readWhole, if_neg hd]
        exact hread

theorem readNumber_takes : Takes (readNumber negative) := by
  intro s x rest h
  cases s with
  | nil => cases h
  | cons c r =>
    by_cases hz : c = '0'
    · subst hz
      cases r with
      | nil =>
        cases h
        exact ⟨['0'], rfl, fun d hd => by rw [List.mem_singleton.mp hd]; rfl, rfl⟩
      | cons d r =>
        simp only [readNumber] at h
        by_cases hd : Decimal.isDigit d = true
        · rw [if_pos hd] at h
          cases h
        · rw [if_neg hd] at h
          obtain ⟨p, heq, hnum, hread⟩ := finishWhole_takes _ x rest h
          refine ⟨'0' :: p, by rw [heq]; rfl, forall_numeral_cons rfl hnum, ?_⟩
          cases p with
          | nil => exact hread
          | cons e p =>
            obtain ⟨rfl, -⟩ := List.cons.inj heq
            simp only [readNumber, if_neg hd]
            exact hread
    · rw [readNumber_of_ne_zero r hz] at h
      by_cases hd : Decimal.isDigit c = true
      · rw [if_pos hd] at h
        obtain ⟨p, rfl, hnum, hread⟩ := readWhole_takes _ r x rest h
        refine ⟨c :: p, rfl, forall_numeral_cons (isNumeralChar_of_isDigit hd) hnum, ?_⟩
        rw [readNumber_of_ne_zero p hz, if_pos hd]
        exact hread
      · rw [if_neg hd] at h
        cases h

end Parts

/-- What the reader reads from the front of a text is a numeral. -/
theorem readSigned_takes {s rest : List Char} {n : Number} (h : readSigned s = .ok (n, rest)) :
    ∃ p, s = p ++ rest ∧ Numeral p n := by
  cases s with
  | nil => cases h
  | cons c r =>
    by_cases hm : c = '-'
    · subst hm
      obtain ⟨p, rfl, hnum, hread⟩ := readNumber_takes r n rest h
      exact ⟨'-' :: p, rfl, forall_numeral_cons rfl hnum, hread⟩
    · rw [readSigned_of_ne_minus r hm] at h
      obtain ⟨p, heq, hnum, hread⟩ := readNumber_takes _ n rest h
      refine ⟨p, heq, hnum, ?_⟩
      cases p with
      | nil => exact hread
      | cons d p =>
        obtain ⟨rfl, -⟩ := List.cons.inj heq
        rw [readSigned_of_ne_minus p hm]
        exact hread

/-! ## Strings -/

theorem hex4_of_readHex4 {s r : List Char} {n : Nat} (h : readHex4 s = .ok (n, r)) :
    ∃ a b c d, s = a :: b :: c :: d :: r ∧ Hex4 a b c d n := by
  unfold readHex4 at h
  split at h
  · next a b c d r' =>
    split at h
    · next w x y z hw hx hy hz =>
      cases h
      exact ⟨a, b, c, d, rfl, w, x, y, z, hw, hx, hy, hz, rfl⟩
    · cases h
  · split at h <;> cases h

theorem escape_of_readUnicodeEscape {s r : List Char} {x : Char}
    (h : readUnicodeEscape s = .ok (x, r)) : ∃ e, s = e ++ r ∧ Escape x ('u' :: e) := by
  unfold readUnicodeEscape at h
  obtain ⟨⟨n, r₁⟩, hread, hunits⟩ := exists_of_bind h
  obtain ⟨a, b, c, d, rfl, hn⟩ := hex4_of_readHex4 hread
  simp only at hunits
  split at hunits
  · cases hunits
  · next hlow =>
    split at hunits
    · next hunit =>
      cases hunits
      refine ⟨[a, b, c, d], rfl, .unit hn ?_⟩
      simp only [Bool.or_eq_true, decide_eq_true_eq, Bool.and_eq_true] at hunit hlow
      omega
    · next hhigh =>
      -- a leading surrogate: the second half must follow
      split at hunits
      · next r₂ =>
        obtain ⟨⟨m, r₃⟩, hread', htrail⟩ := exists_of_bind hunits
        obtain ⟨a', b', c', d', rfl, hm⟩ := hex4_of_readHex4 hread'
        simp only at htrail
        split at htrail
        · cases htrail
        · next hrange =>
          simp only [Bool.or_eq_true, decide_eq_true_eq, Bool.and_eq_true] at hhigh hlow hrange
          have hpair := Escape.pair hn hm (by omega) (by omega)
          obtain ⟨rfl, rfl⟩ := Prod.mk.inj (Except.ok.inj htrail)
          exact ⟨[a, b, c, d, '\\', 'u', a', b', c', d'], rfl, hpair⟩
      · split at hunits <;> cases hunits
      · cases hunits
      · cases hunits

/-- What was read behind a backslash is an escape. -/
theorem escape_of_readEscape {s r : List Char} {x : Char} (h : readEscape s = .ok (x, r)) :
    ∃ e, s = e ++ r ∧ Escape x e := by
  unfold readEscape at h
  split at h
  · cases h
  · cases h; exact ⟨_, rfl, .quote⟩
  · cases h; exact ⟨_, rfl, .backslash⟩
  · cases h; exact ⟨_, rfl, .slash⟩
  · cases h; exact ⟨_, rfl, .backspace⟩
  · cases h; exact ⟨_, rfl, .formFeed⟩
  · cases h; exact ⟨_, rfl, .lineFeed⟩
  · cases h; exact ⟨_, rfl, .carriageReturn⟩
  · cases h; exact ⟨_, rfl, .tab⟩
  · obtain ⟨e, rfl, he⟩ := escape_of_readUnicodeEscape h
    exact ⟨'u' :: e, rfl, he⟩
  · cases h

/-- What the reader reads as a string is one, up to its closing quote. -/
theorem readString_takes : ∀ (fuel : Nat) (s : List Char) {cs rest : List Char},
    readString fuel s = .ok (cs, rest) → ∃ t, s = t ++ '"' :: rest ∧ Body cs t := by
  intro fuel
  induction fuel with
  | zero =>
    intro s cs rest h
    cases s <;> cases h
  | succ fuel ih =>
    intro s cs rest h
    cases s with
    | nil => cases h
    | cons c r =>
      rw [readString] at h
      by_cases hq : c = '"'
      · rw [if_pos hq] at h
        cases h
        exact ⟨[], by rw [hq]; rfl, .nil⟩
      rw [if_neg hq] at h
      by_cases hb : c = '\\'
      · rw [if_pos hb] at h
        obtain ⟨⟨x, r'⟩, he, hbehind⟩ := exists_of_bind h
        obtain ⟨e, rfl, hescape⟩ := escape_of_readEscape he
        obtain ⟨y, hs, hdone⟩ := exists_of_bind hbehind
        cases hdone
        obtain ⟨t, rfl, hbody⟩ := ih r' hs
        exact ⟨'\\' :: (e ++ t), by rw [hb, List.cons_append, List.append_assoc],
          .escape hescape hbody⟩
      rw [if_neg hb] at h
      by_cases hc : c.toNat < 0x20
      · rw [if_pos hc] at h
        cases h
      rw [if_neg hc] at h
      obtain ⟨y, hs, hdone⟩ := exists_of_bind h
      cases hdone
      obtain ⟨t, rfl, hbody⟩ := ih r hs
      exact ⟨c :: t, rfl, .raw (Nat.le_of_not_lt hc) hq hb hbody⟩

/-! ## Values -/

/-- Behind the value that a text holds there are blanks. -/
theorem readValue_of_read {s : List Char} {v : Json} (h : Json.read s = .ok v) :
    ∃ rest, readValue maxDepth s = .ok (v, rest) ∧ Spaces rest := by
  rw [Json.read, readWithin] at h
  obtain ⟨⟨v', rest⟩, hread, hbehind⟩ := exists_of_bind h
  simp only at hbehind
  split at hbehind
  · next hnone =>
    cases hbehind
    exact ⟨rest, hread, List.dropWhile_eq_nil_iff.mp hnone⟩
  · cases hbehind

/-- A number that was read as a value was read as a number. -/
theorem readNumber_of_read {negative : Bool} {s rest : List Char} {v : Json}
    (h : (do
      let (n, r) ← readNumber negative s
      return (Json.num n, r)) = Except.ok (v, rest)) :
    ∃ n, v = .num n ∧ readNumber negative s = .ok (n, rest) := by
  obtain ⟨y, hn, hdone⟩ := exists_of_bind h
  cases hdone
  exact ⟨_, rfl, hn⟩

/-- A text whose first token is a minus sign or a digit is read as a number. -/
theorem num_of_readValue {d : Nat} {c : Char} (hc : c = '-' ∨ Decimal.isDigit c = true)
    {s rest : List Char} {v : Json} (h : readValue d (c :: s) = .ok (v, rest)) :
    ∃ n, v = .num n ∧ readSigned (c :: s) = .ok (n, rest) := by
  rcases hc with rfl | hc
  · rw [readValue.eq_1, skipSpace_of_solid (by decide)] at h
    exact readNumber_of_read h
  · have hm : c ≠ '-' := by
      rintro rfl
      exact absurd hc (by decide)
    rw [readValue.eq_1, skipSpace_of_solid
      (not_isSpace_of_isNumeralChar (isNumeralChar_of_isDigit hc))] at h
    rw [readSigned_of_ne_minus s hm]
    -- a digit is none of the characters that the other kinds of values start with
    split at h <;> rename_i heq <;> cases heq <;> try exact absurd hc (by decide)
    rw [if_pos hc] at h
    exact readNumber_of_read h

/-- A text whose first token is a quote is read as a string. -/
theorem str_of_readValue {d : Nat} {s rest : List Char} {v : Json}
    (h : readValue d ('"' :: s) = .ok (v, rest)) :
    ∃ cs t, v = .str (String.ofList cs) ∧ s = t ++ '"' :: rest ∧ Body cs t := by
  rw [readValue.eq_1, skipSpace_of_solid (by decide)] at h
  obtain ⟨y, hs, hdone⟩ := exists_of_bind h
  cases hdone
  obtain ⟨t, rfl, hbody⟩ := readString_takes _ s hs
  exact ⟨_, t, rfl, rfl, hbody⟩

/-- The first character of a value. -/
theorem head_of_readValue {d : Nat} {c : Char} (hc : isSpace c = false) {s : List Char}
    {x : Json × List Char} (h : readValue d (c :: s) = .ok x) :
    c ∈ ['n', 't', 'f', '-', '"', '[', '\x7b'] ∨ Decimal.isDigit c = true := by
  rw [readValue.eq_1, skipSpace_of_solid hc] at h
  split at h
  case h_1 heq => cases heq
  case h_9 heq =>
    obtain ⟨rfl, -⟩ := List.cons.inj heq
    right
    by_contra hd
    rw [if_neg hd] at h
    cases h
  all_goals
    rename_i heq
    obtain ⟨rfl, -⟩ := List.cons.inj heq
    exact Or.inl (by decide)

/-- Behind an opening bracket a container is read. -/
theorem container_of_readValue {d : Nat} {o : Char} (ho : o = '[' ∨ o = '\x7b')
    {s rest : List Char} {v : Json} (h : readValue d (o :: s) = .ok (v, rest)) :
    (∃ vs, v = .arr vs) ∨ ∃ ms, v = .obj ms := by
  rcases ho with rfl | rfl
  · left
    rw [readValue.eq_1, skipSpace_of_solid (by decide)] at h
    cases d with
    | zero => cases h
    | succ d =>
      simp only at h
      split at h
      · cases h
      · cases h
        exact ⟨_, rfl⟩
      · obtain ⟨y, -, hdone⟩ := exists_of_bind h
        cases hdone
        exact ⟨_, rfl⟩
  · right
    rw [readValue.eq_1, skipSpace_of_solid (by decide)] at h
    cases d with
    | zero => cases h
    | succ d =>
      simp only at h
      split at h
      · cases h
      · cases h
        exact ⟨_, rfl⟩
      · obtain ⟨y, -, hdone⟩ := exists_of_bind h
        cases hdone
        exact ⟨_, rfl⟩

theorem skipSpace_skipSpace (s : List Char) : skipSpace (skipSpace s) = skipSpace s := by
  cases hs : skipSpace s with
  | nil => rfl
  | cons c r =>
    have hhead := List.head?_dropWhile_not isSpace s
    rw [show s.dropWhile isSpace = c :: r from hs, List.head?_cons] at hhead
    exact skipSpace_of_solid hhead r

section Elements

variable {item : List Char → Except Fault (Json × List Char)} {fuel : Nat} {s rest : List Char}

/-- The loop of an array reads one element at least. -/
theorem readElements_ne_nil {vs : List Json} (h : readElements item fuel s = .ok (vs, rest)) :
    vs ≠ [] := by
  rintro rfl
  cases fuel with
  | zero => cases h
  | succ fuel =>
    rw [readElements] at h
    obtain ⟨y, -, hmore⟩ := exists_of_bind h
    simp only at hmore
    split at hmore
    · cases hmore
    · cases hmore
    · split at hmore
      · cases hmore
      · cases hmore
      · obtain ⟨z, -, hdone⟩ := exists_of_bind hmore
        cases hdone
    · cases hmore

/-- The loop of an array that read one element found the closing bracket behind it. -/
theorem readElements_singleton {v : Json} (h : readElements item fuel s = .ok ([v], rest)) :
    ∃ r, item s = .ok (v, r) ∧ skipSpace r = ']' :: rest := by
  cases fuel with
  | zero => cases h
  | succ fuel =>
    rw [readElements] at h
    obtain ⟨y, hitem, hbehind⟩ := exists_of_bind h
    simp only at hbehind
    split at hbehind
    · cases hbehind
    · next hclose =>
      cases hbehind
      exact ⟨_, hitem, hclose⟩
    · split at hbehind
      · cases hbehind
      · cases hbehind
      · obtain ⟨⟨vs, r⟩, hmore, hdone⟩ := exists_of_bind hbehind
        cases hdone
        exact absurd rfl (readElements_ne_nil hmore)
    · cases hbehind

end Elements

/-- What is read as an array of one element has that element behind the bracket, and the closing
    bracket behind it. -/
theorem read_singleton {s : List Char} {v : Json} (h : Json.read ('[' :: s) = .ok (.arr [v])) :
    ∃ r r', readValue 126 s = .ok (v, r) ∧ skipSpace r = ']' :: r' := by
  have hskip : readValue 126 (skipSpace s) = readValue 126 s :=
    readValue_skipSpace 126 (skipSpace_skipSpace s)
  obtain ⟨rest, hread, -⟩ := readValue_of_read h
  rw [readValue.eq_1, skipSpace_of_solid (by decide)] at hread
  simp only [maxDepth] at hread
  split at hread
  · cases hread
  · cases hread
  · obtain ⟨⟨vs, rest'⟩, helements, hdone⟩ := exists_of_bind hread
    cases hdone
    obtain ⟨r, hitem, hclose⟩ := readElements_singleton helements
    exact ⟨r, _, by rw [← hskip, hitem], hclose⟩

end Polyshell.Json
