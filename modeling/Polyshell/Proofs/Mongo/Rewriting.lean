/-
  The rewriting of relaxed literals, token by token.

  `strictFrom` carries fuel, and every turn reads at least one character; so any two amounts that
  cover the text give one result (`strictFrom_congr`).  `rewritten` is the rewriting with exactly
  enough, and the rest of the library reasons about it only: it reads a text from the left, and
  for each kind of token there is one equation that moves the token from the text to what was
  written (`rewritten_string`, `rewritten_close`, `rewritten_other`, and three for words).

  Two of the decisions look back at what was written.  Both go past blanks, so all they depend on is
  the last character that is not blank (`lastSolid?`).
-/
import Polyshell.Proofs.Json.Spelling
import Polyshell.Proofs.Mongo.Coercion

namespace Polyshell.Mongo

open Polyshell.Text
open Polyshell.Json (Spaces isSpace isNumeralChar EndsNumber Numeral Escape Body)

/-! ## Every turn shortens the text -/

theorem length_copyString_le (q : Char) (s : List Char) : (copyString q s).2.length ≤ s.length := by
  fun_induction copyString q s with
  | case1 => exact Nat.le_refl _
  | case2 c r s rest hc ih => rw [hc] at ih; simp only [List.length_cons] at ih ⊢; omega
  | case3 r => simp
  | case4 c r hne hq s rest hc ih => rw [hc] at ih; simp only [List.length_cons] at ih ⊢; omega

theorem length_cut_lt {d : Char} {s r : List Char} (h : (cut d s).2 = some r) :
    r.length < s.length := by
  induction s with
  | nil => cases h
  | cons c s ih =>
    rw [cut] at h
    by_cases hc : c = d
    · rw [if_pos hc] at h
      cases h
      exact Nat.lt_succ_self _
    · rw [if_neg hc] at h
      have hlt := ih h
      simp only [List.length_cons]
      omega

theorem length_trimStart_le (s : List Char) : (trimStart s).length ≤ s.length :=
  (List.dropWhile_suffix _).length_le

theorem length_callText_le {ambient : Ambient} {con : Constructor} {rest v behind : List Char}
    (h : callText ambient con rest = .ok (v, behind)) : behind.length ≤ rest.length := by
  have htrim := length_trimStart_le rest
  unfold callText at h
  split at h
  · rename_i r heq
    rw [heq, List.length_cons] at htrim
    split at h
    · cases h
    · rename_i inner b hcut
      have hlt := length_cut_lt (d := ')') (s := r) (r := b) (by rw [hcut])
      cases hr : con.render ambient b.length (trim inner) with
      | error e => rw [hr] at h; cases h
      | ok t => rw [hr] at h; cases h; omega
  · cases h

theorem length_wordSense_le {word rest behind : List Char} {con : Constructor}
    (h : wordSense word rest = .call con behind) : behind.length ≤ rest.length := by
  unfold wordSense at h
  by_cases hnew : word = "new".toList
  · rw [if_pos hnew] at h
    have htrim := length_trimStart_le rest
    have hdrop := (List.dropWhile_suffix (l := trimStart rest) isNameChar).length_le
    simp only at h
    split at h
    · cases h; omega
    · cases h
  · rw [if_neg hnew] at h
    by_cases hu : word = "undefined".toList
    · rw [if_pos hu] at h; cases h
    · rw [if_neg hu] at h
      split at h
      · cases h; exact Nat.le_refl _
      · cases h

theorem length_spanWord_lt {c : Char} {r : List Char} (hc : isWordChar c = true) :
    (spanWord (c :: r)).2.length < (c :: r).length := by
  rw [spanWord, List.dropWhile_cons, if_pos hc, List.length_cons]
  exact Nat.lt_succ_of_le (List.dropWhile_suffix _).length_le

/-- Fuel beyond the length of the text makes no difference. -/
theorem strictFrom_congr (ambient : Ambient) : ∀ fuel fuel' (out rest : List Char),
    rest.length ≤ fuel → rest.length ≤ fuel' →
      strictFrom ambient fuel out rest = strictFrom ambient fuel' out rest := by
  intro fuel
  induction fuel with
  | zero =>
    intro fuel' out rest h _
    obtain rfl : rest = [] := List.length_eq_zero_iff.mp (Nat.le_zero.mp h)
    rw [strictFrom_nil, strictFrom_nil]
  | succ fuel ih =>
    intro fuel' out rest h h'
    cases rest with
    | nil => rw [strictFrom_nil, strictFrom_nil]
    | cons c r =>
      rw [List.length_cons] at h h'
      obtain ⟨fuel', rfl⟩ := Nat.exists_eq_succ_of_ne_zero (show fuel' ≠ 0 by omega)
      rw [strictFrom, strictFrom]
      -- the branches of a turn, in the order of its tests: each goes on with a shorter rest
      by_cases hq : Scan.isQuote c = true
      · rw [if_pos hq, if_pos hq]
        have hle := length_copyString_le c r
        exact ih _ _ _ (by omega) (by omega)
      rw [if_neg hq, if_neg hq]
      by_cases hclose : (c = '\x7d' || c = ']') = true
      · rw [if_pos hclose, if_pos hclose]
        exact ih _ _ _ (by omega) (by omega)
      rw [if_neg hclose, if_neg hclose]
      by_cases hw : isWordChar c = true
      · rw [if_pos hw, if_pos hw]
        have hlt := length_spanWord_lt (r := r) hw
        rcases hspan : spanWord (c :: r) with ⟨word, rest⟩
        rw [hspan, List.length_cons] at hlt
        simp only at hlt ⊢
        by_cases hkey : isKeyPosition out rest = true
        · rw [if_pos hkey, if_pos hkey]
          exact ih _ _ _ (by omega) (by omega)
        rw [if_neg hkey, if_neg hkey]
        cases hs : wordSense word rest with
        | plain => exact ih _ _ _ (by omega) (by omega)
        | undefined => exact ih _ _ _ (by omega) (by omega)
        | badNew => rfl
        | call con behindName =>
          have hname := length_wordSense_le hs
          simp only
          cases ht : callText ambient con behindName with
          | error e => rfl
          | ok p =>
            obtain ⟨v, behind⟩ := p
            have hcall := length_callText_le ht
            exact ih _ _ _ (by omega) (by omega)
      · rw [if_neg hw, if_neg hw]
        exact ih _ _ _ (by omega) (by omega)

/-! ## One equation for each kind of token -/

/-- The rewriting of `rest` behind `out`, with the fuel that it needs. -/
def rewritten (ambient : Ambient) (out rest : List Char) : Except String (List Char) :=
  strictFrom ambient rest.length out rest

section Tokens

variable (ambient : Ambient) (out : List Char)

theorem rewritten_nil : rewritten ambient out [] = .ok out.reverse := rfl

/-- A string literal is copied, between double quotes. -/
theorem rewritten_string {q : Char} (hq : Scan.isQuote q = true) (r : List Char) :
    rewritten ambient out (q :: r) =
      rewritten ambient ((copyString q r).1.reverse ++ '"' :: out) (copyString q r).2 := by
  rw [rewritten, List.length_cons, strictFrom, if_pos hq]
  exact strictFrom_congr ambient _ _ _ _ (length_copyString_le q r) (Nat.le_refl _)

/-- A closing bracket takes back the comma in front of it. -/
theorem rewritten_close {c : Char} (hc : c = '\x7d' ∨ c = ']') (r : List Char) :
    rewritten ambient out (c :: r) = rewritten ambient (c :: withoutComma out) r := by
  have hq : ¬ Scan.isQuote c = true := by rcases hc with rfl | rfl <;> decide
  rw [rewritten, List.length_cons, strictFrom, if_neg hq, if_pos (by simpa using hc)]
  rfl

/-- What is no token of its own stands for itself. -/
theorem rewritten_other {c : Char} (hq : Scan.isQuote c = false) (hb : c ≠ '\x7d') (hc : c ≠ ']')
    (hw : isWordChar c = false) (r : List Char) :
    rewritten ambient out (c :: r) = rewritten ambient (c :: out) r := by
  rw [rewritten, List.length_cons, strictFrom, hq, hw, if_neg Bool.false_ne_true,
    if_neg (by simp [hb, hc]), if_neg Bool.false_ne_true]
  rfl

/-- A text in front of which a word ends. -/
def EndsWord (rest : List Char) : Prop := ∀ c r, rest = c :: r → isWordChar c = false

theorem spanWord_append {w rest : List Char} (hw : ∀ c ∈ w, isWordChar c = true)
    (hrest : EndsWord rest) : spanWord (w ++ rest) = (w, rest) := by
  rw [spanWord, List.takeWhile_append_of_pos hw, List.dropWhile_append_of_pos hw]
  cases rest with
  | nil => rw [List.takeWhile_nil, List.dropWhile_nil, List.append_nil]
  | cons c r =>
    rw [List.takeWhile_cons, List.dropWhile_cons, hrest c r rfl, if_neg Bool.false_ne_true,
      if_neg Bool.false_ne_true, List.append_nil]

theorem isWordChar_solid {c : Char} (h : isWordChar c = true) :
    Scan.isQuote c = false ∧ c ≠ '\x7d' ∧ c ≠ ']' := by
  refine ⟨?_, by rintro rfl; exact absurd h (by decide), by rintro rfl; exact absurd h (by decide)⟩
  cases hq : Scan.isQuote c with
  | false => rfl
  | true =>
    simp only [Scan.isQuote, Bool.or_eq_true, decide_eq_true_eq] at hq
    rcases hq with rfl | rfl <;> exact absurd h (by decide)

/-- A turn that begins with a word. -/
theorem rewritten_word {w rest : List Char} (hne : w ≠ []) (hw : ∀ c ∈ w, isWordChar c = true)
    (hrest : EndsWord rest) :
    ∃ fuel, rest.length ≤ fuel ∧ rewritten ambient out (w ++ rest) =
      if isKeyPosition out rest then strictFrom ambient fuel ('"' :: (w.reverse ++ '"' :: out)) rest
      else match wordSense w rest with
        | .plain => strictFrom ambient fuel (w.reverse ++ out) rest
        | .undefined => strictFrom ambient fuel ("null".toList.reverse ++ out) rest
        | .badNew => .error "only `new Date` and `new ObjectId` are supported"
        | .call con behindName =>
          match callText ambient con behindName with
          | .error reason => .error reason
          | .ok (v, behind) => strictFrom ambient fuel (v.reverse ++ out) behind := by
  obtain ⟨c, w', rfl⟩ := List.exists_cons_of_ne_nil hne
  obtain ⟨hq, hb, hc⟩ := isWordChar_solid (hw c List.mem_cons_self)
  refine ⟨(w' ++ rest).length, by rw [List.length_append]; omega, ?_⟩
  have hspan := spanWord_append hw hrest
  rw [List.cons_append] at hspan
  rw [rewritten, List.cons_append, List.length_cons, strictFrom, hq, if_neg Bool.false_ne_true,
    if_neg (by simp [hb, hc]), if_pos (hw c List.mem_cons_self)]
  rewrite [hspan]
  rfl

variable {w rest : List Char} (hne : w ≠ []) (hw : ∀ c ∈ w, isWordChar c = true)
  (hrest : EndsWord rest)
include hne hw hrest

/-- A word in the place of a key is quoted. -/
theorem rewritten_key (hkey : isKeyPosition out rest = true) :
    rewritten ambient out (w ++ rest) =
      rewritten ambient ('"' :: (w.reverse ++ '"' :: out)) rest := by
  obtain ⟨fuel, hf, heq⟩ := rewritten_word ambient out hne hw hrest
  rw [heq, if_pos hkey]
  exact strictFrom_congr ambient _ _ _ _ hf (Nat.le_refl _)

/-- A word without a meaning of its own stands for itself. -/
theorem rewritten_plain (hkey : isKeyPosition out rest = false) (hs : wordSense w rest = .plain) :
    rewritten ambient out (w ++ rest) = rewritten ambient (w.reverse ++ out) rest := by
  obtain ⟨fuel, hf, heq⟩ := rewritten_word ambient out hne hw hrest
  rw [heq, hkey, if_neg Bool.false_ne_true, hs]
  exact strictFrom_congr ambient _ _ _ _ hf (Nat.le_refl _)

theorem rewritten_undefined (hkey : isKeyPosition out rest = false)
    (hs : wordSense w rest = .undefined) :
    rewritten ambient out (w ++ rest) = rewritten ambient ("null".toList.reverse ++ out) rest := by
  obtain ⟨fuel, hf, heq⟩ := rewritten_word ambient out hne hw hrest
  rw [heq, hkey, if_neg Bool.false_ne_true, hs]
  exact strictFrom_congr ambient _ _ _ _ hf (Nat.le_refl _)

end Tokens

/-! ## Blanks -/

theorem isBlank_of_isSpace {c : Char} (h : isSpace c = true) : isBlank c = true := by
  simp only [isSpace, Bool.or_eq_true, decide_eq_true_eq] at h
  rcases h with ((rfl | rfl) | rfl) | rfl <;> decide

theorem Blanks.of_spaces {w : List Char} (hw : Spaces w) : Blanks w :=
  fun c hc => isBlank_of_isSpace (hw c hc)

/-- No character of words is blank. -/
theorem not_isBlank_of_isWordChar {c : Char} (h : isWordChar c = true) : isBlank c = false := by
  have hall : ∀ i : Fin 128, isWordChar (Char.ofNat i.val) = true →
      isBlank (Char.ofNat i.val) = false := by decide
  have hlt : c.toNat < 128 := by
    rw [isWordChar, isNameChar, Bool.or_eq_true, Bool.or_eq_true, Bool.or_eq_true,
      decide_eq_true_eq, decide_eq_true_eq, decide_eq_true_eq] at h
    rcases h with ((h | rfl) | rfl) | rfl
    · exact toNat_lt_of_isAlphanum h
    all_goals decide
  have hc := hall ⟨c.toNat, hlt⟩
  rw [Char.ofNat_toNat] at hc
  exact hc h

theorem isBlank_other {c : Char} (h : isBlank c = true) :
    Scan.isQuote c = false ∧ c ≠ '\x7d' ∧ c ≠ ']' ∧ isWordChar c = false := by
  have hquote : Scan.isQuote c = false := by
    rw [Scan.isQuote, Bool.or_eq_false_iff, decide_eq_false_iff_not, decide_eq_false_iff_not]
    exact ⟨ne_of_isBlank h (by decide), ne_of_isBlank h (by decide)⟩
  refine ⟨hquote, ne_of_isBlank h (by decide), ne_of_isBlank h (by decide), ?_⟩
  cases hw : isWordChar c with
  | false => rfl
  | true =>
    rw [not_isBlank_of_isWordChar hw] at h
    cases h

theorem isSpace_other {c : Char} (h : isSpace c = true) :
    Scan.isQuote c = false ∧ c ≠ '\x7d' ∧ c ≠ ']' ∧ isWordChar c = false :=
  isBlank_other (isBlank_of_isSpace h)

/-- Blanks are left alone. -/
theorem rewritten_blanks (ambient : Ambient) {w : List Char} (hw : Blanks w) (r : List Char) :
    ∀ out, rewritten ambient out (w ++ r) = rewritten ambient (w.reverse ++ out) r := by
  induction w with
  | nil => intro out; rfl
  | cons c w ih =>
    intro out
    obtain ⟨hq, hb, hc, hword⟩ := isBlank_other (hw c List.mem_cons_self)
    rw [List.cons_append, rewritten_other ambient out hq hb hc hword,
      ih (fun d hd => hw d (List.mem_cons_of_mem c hd)), List.reverse_cons, List.append_assoc]
    rfl

theorem rewritten_spaces (ambient : Ambient) {w : List Char} (hw : Spaces w) (r : List Char)
    (out : List Char) :
    rewritten ambient out (w ++ r) = rewritten ambient (w.reverse ++ out) r :=
  rewritten_blanks ambient (Blanks.of_spaces hw) r out

theorem trimStart_blanks {w : List Char} (hw : Blanks w) (r : List Char) :
    trimStart (w ++ r) = trimStart r :=
  List.dropWhile_append_of_pos hw

theorem trimStart_spaces {w : List Char} (hw : Spaces w) (r : List Char) :
    trimStart (w ++ r) = trimStart r :=
  trimStart_blanks (Blanks.of_spaces hw) r

theorem trimStart_of_solid {c : Char} (hc : isBlank c = false) (r : List Char) :
    trimStart (c :: r) = c :: r := by
  rw [trimStart, List.dropWhile_cons, hc, if_neg Bool.false_ne_true]

/-- Blanks behind what was written do not matter to the decisions that look back at it. -/
theorem lastSolid?_blanks {w : List Char} (hw : Blanks w) (out : List Char) :
    lastSolid? (w.reverse ++ out) = lastSolid? out := by
  rw [lastSolid?, trimStart_blanks hw.reverse, lastSolid?]

theorem lastSolid?_spaces {w : List Char} (hw : Spaces w) (out : List Char) :
    lastSolid? (w.reverse ++ out) = lastSolid? out :=
  lastSolid?_blanks (Blanks.of_spaces hw) out

theorem withoutComma_of_comma {w : List Char} (hw : Blanks w) (out : List Char) :
    withoutComma (w.reverse ++ ',' :: out) = out := by
  rw [withoutComma, trimStart_blanks hw.reverse, trimStart_of_solid (by decide)]
  rfl

theorem withoutComma_of_solid {out : List Char} (h : lastSolid? out ≠ some ',') :
    withoutComma out = out := by
  unfold withoutComma
  split
  · rename_i heq
    exact absurd (by rw [lastSolid?, heq]; rfl) h
  · rfl

/-! ## Where values end -/

/-- What may stand behind a value: blanks, and then a comma, a closing bracket or nothing. -/
def EndsValue (rest : List Char) : Prop :=
  ∃ w r, Spaces w ∧ rest = w ++ r ∧ ∀ c s, r = c :: s → c = ',' ∨ c = ']' ∨ c = '\x7d'

namespace EndsValue

theorem nil : EndsValue [] := ⟨[], [], Json.Spaces.nil, rfl, fun _ _ h => by cases h⟩

theorem of_spaces {w : List Char} (hw : Spaces w) {c : Char} (r : List Char)
    (hc : c = ',' ∨ c = ']' ∨ c = '\x7d') : EndsValue (w ++ c :: r) :=
  ⟨w, c :: r, hw, rfl, fun d s h => by obtain ⟨rfl, -⟩ := List.cons.inj h; exact hc⟩

variable {rest : List Char} (h : EndsValue rest)
include h

/-- The first character behind a value. -/
theorem head {c : Char} {r : List Char} (hr : rest = c :: r) :
    isSpace c = true ∨ c = ',' ∨ c = ']' ∨ c = '\x7d' := by
  obtain ⟨w, s, hw, heq, hs⟩ := h
  cases w with
  | nil => exact Or.inr (hs c r (heq.symm.trans hr))
  | cons d w =>
    rw [hr] at heq
    obtain ⟨rfl, -⟩ := List.cons.inj heq
    exact Or.inl (hw c List.mem_cons_self)

theorem endsWord : EndsWord rest := by
  intro c r hr
  rcases h.head hr with hs | rfl | rfl | rfl
  · exact (isSpace_other hs).2.2.2
  all_goals decide

/-- No colon comes next. -/
theorem not_colon : (trimStart rest).head? ≠ some ':' := by
  obtain ⟨w, r, hw, rfl, hr⟩ := h
  rw [trimStart_spaces hw]
  cases r with
  | nil => exact fun hn => by cases hn
  | cons c s =>
    have hc : isBlank c = false ∧ c ≠ ':' := by rcases hr c s rfl with rfl | rfl | rfl <;> decide
    rw [trimStart_of_solid hc.1]
    exact fun hn => hc.2 (Option.some.inj hn)

/-- A word in front of it is no key. -/
theorem not_key (out : List Char) : isKeyPosition out rest = false := by
  have hcolon := h.not_colon
  simp only [isKeyPosition, Bool.and_eq_false_iff]
  exact Or.inr (by simpa using hcolon)

end EndsValue

/-! ## Words that stand for themselves -/

/-- The words with a meaning of their own. -/
def reservedWords : List String := "new" :: "undefined" :: Constructor.all.map Constructor.name

theorem wordSense_plain {w : List Char} (h : ∀ s ∈ reservedWords, w ≠ s.toList) (rest : List Char) :
    wordSense w rest = .plain := by
  have hnew : w ≠ "new".toList := h _ (by decide)
  have hundefined : w ≠ "undefined".toList := h _ (by decide)
  have hnone : Constructor.ofName? w = none := by
    rw [Constructor.ofName?, List.find?_eq_none]
    intro c hc
    have hne := h c.name (by
      simp only [reservedWords, List.mem_cons]
      exact Or.inr (Or.inr (List.mem_map_of_mem hc)))
    simpa using Ne.symm hne
  rw [wordSense, if_neg hnew, if_neg hundefined, hnone]

theorem isWordChar_of_isNumeralChar {c : Char} (h : isNumeralChar c = true) (hp : c ≠ '+')
    (hm : c ≠ '-') : isWordChar c = true := by
  simp only [isNumeralChar, Bool.or_eq_true, decide_eq_true_eq, hp, hm, or_false] at h
  rcases h with ((hd | rfl) | rfl) | rfl
  · have hdigit : c.isDigit = true := by
      rw [Decimal.isDigit_iff] at hd
      simp only [Char.isDigit, Bool.and_eq_true, decide_eq_true_eq, UInt32.le_iff_toNat_le]
      exact hd
    simp [isWordChar, isNameChar, Char.isAlphanum, hdigit]
  all_goals decide

theorem not_isBlank_of_isNumeralChar {c : Char} (h : isNumeralChar c = true) : isBlank c = false := by
  simp only [isNumeralChar, Bool.or_eq_true, decide_eq_true_eq] at h
  rcases h with ((((hd | rfl) | rfl) | rfl) | rfl) | rfl
  · rw [Decimal.isDigit_iff] at hd
    have hne : ∀ n, n < 48 ∨ 57 < n → (c.toNat == n) = false := fun n hn => beq_false_of_ne (by omega)
    simp only [isBlank, Bool.or_eq_false_iff, Bool.and_eq_false_iff, decide_eq_false_iff_not]
    refine ⟨⟨⟨⟨⟨⟨⟨⟨⟨⟨?_, ?_⟩, ?_⟩, ?_⟩, ?_⟩, ?_⟩, ?_⟩, ?_⟩, ?_⟩, ?_⟩, ?_⟩
    all_goals first | exact hne _ (by omega) | omega
  all_goals decide

/-- No reserved word is made of the characters of numbers. -/
theorem ne_reserved_of_numeral {w : List Char} (h : ∀ c ∈ w, isNumeralChar c = true) :
    ∀ s ∈ reservedWords, w ≠ s.toList := by
  have hbad : ∀ s ∈ reservedWords, ¬ s.toList.all isNumeralChar = true := by decide
  rintro s hs rfl
  exact hbad s hs (List.all_eq_true.mpr h)

/-- The characters of a number up to its next sign are one word. -/
theorem exists_word_of_numeral (t : List Char) (h : ∀ c ∈ t, isNumeralChar c = true) :
    ∃ w s, t = w ++ s ∧ (∀ c ∈ w, isWordChar c = true) ∧
      ∀ c r, s = c :: r → c = '+' ∨ c = '-' := by
  induction t with
  | nil => exact ⟨[], [], rfl, fun _ h => absurd h List.not_mem_nil, fun _ _ h => by cases h⟩
  | cons c t ih =>
    by_cases hsign : c = '+' ∨ c = '-'
    · exact ⟨[], c :: t, rfl, fun _ h => absurd h List.not_mem_nil,
        fun d r hd => by obtain ⟨rfl, -⟩ := List.cons.inj hd; exact hsign⟩
    · obtain ⟨hp, hm⟩ := not_or.mp hsign
      obtain ⟨w, s, rfl, hw, hs⟩ := ih fun d hd => h d (List.mem_cons_of_mem c hd)
      refine ⟨c :: w, s, rfl, fun d hd => ?_, hs⟩
      rcases List.mem_cons.mp hd with rfl | hd
      · exact isWordChar_of_isNumeralChar (h d List.mem_cons_self) hp hm
      · exact hw d hd

/-- A sign is no token, and ends a word that is no key. -/
theorem sign_other {c : Char} (h : c = '+' ∨ c = '-') :
    Scan.isQuote c = false ∧ c ≠ '\x7d' ∧ c ≠ ']' ∧ isWordChar c = false ∧ isBlank c = false ∧
      c ≠ ':' := by
  rcases h with rfl | rfl <;> decide

/-- A number is left alone: its signs are no tokens, and its words have no meaning. -/
theorem rewritten_numeral (ambient : Ambient) {rest : List Char} (hrest : EndsValue rest) :
    ∀ (n : Nat) (t out : List Char), t.length ≤ n → (∀ c ∈ t, isNumeralChar c = true) →
      rewritten ambient out (t ++ rest) = rewritten ambient (t.reverse ++ out) rest := by
  intro n
  induction n with
  | zero =>
    intro t out ht _
    obtain rfl : t = [] := List.length_eq_zero_iff.mp (Nat.le_zero.mp ht)
    rfl
  | succ n ih =>
    intro t out ht hall
    obtain ⟨w, s, rfl, hw, hs⟩ := exists_word_of_numeral t hall
    -- behind the word stands a sign, or the end of the number
    have hends : EndsWord (s ++ rest) ∧ isKeyPosition out (s ++ rest) = false := by
      cases s with
      | nil => exact ⟨hrest.endsWord, hrest.not_key out⟩
      | cons d s =>
        obtain ⟨-, -, -, hword, hblank, hcolon⟩ := sign_other (hs d s rfl)
        refine ⟨fun e r he => by obtain ⟨rfl, -⟩ := List.cons.inj he; exact hword, ?_⟩
        rw [isKeyPosition, List.cons_append, trimStart_of_solid hblank]
        simp [hcolon]
    have hword : rewritten ambient out (w ++ (s ++ rest)) =
        rewritten ambient (w.reverse ++ out) (s ++ rest) := by
      by_cases hne : w = []
      · rw [hne]; rfl
      · exact rewritten_plain ambient out hne hw hends.1 hends.2 (wordSense_plain
          (ne_reserved_of_numeral fun d hd => hall d (List.mem_append_left s hd)) _)
    rw [List.append_assoc, hword]
    cases s with
    | nil => rw [List.append_nil, List.nil_append]
    | cons d s =>
      obtain ⟨hq, hb, hc, hd, -, -⟩ := sign_other (hs d s rfl)
      rw [List.length_append, List.length_cons] at ht
      rw [List.cons_append, rewritten_other ambient _ hq hb hc hd, ih s _ (by omega)
        (fun e he => hall e (List.mem_append_right w (List.mem_cons_of_mem d he)))]
      simp only [List.reverse_append, List.reverse_cons, List.append_assoc, List.cons_append,
        List.nil_append]

end Polyshell.Mongo
