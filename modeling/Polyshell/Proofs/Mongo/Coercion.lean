/-
  How the text of one argument is read, by its first character.

  `Argument.ofTrimmed` asks one question after another: is it one of four words, a number, a string
  literal, a literal in brackets or a constructor call; and what is none of these is an identifier.
  For each kind of text there is one lemma here that answers all the questions at once.
-/
import Polyshell.Mongo.Argument
import Polyshell.Proofs.Decimal.Digits

namespace Polyshell.Mongo

open Polyshell.Text

/-! ## Characters -/

/-- The letters and digits of names are those of ASCII. -/
theorem toNat_of_isAlphanum {c : Char} (h : c.isAlphanum = true) :
    (65 ≤ c.toNat ∧ c.toNat ≤ 90) ∨ (97 ≤ c.toNat ∧ c.toNat ≤ 122) ∨
      (48 ≤ c.toNat ∧ c.toNat ≤ 57) := by
  have hrange : ∀ {lo hi : UInt32}, (decide (c.val ≥ lo) && decide (c.val ≤ hi)) = true →
      lo.toNat ≤ c.toNat ∧ c.toNat ≤ hi.toNat := fun hc =>
    ⟨of_decide_eq_true (Bool.and_eq_true_iff.mp hc).1,
      of_decide_eq_true (Bool.and_eq_true_iff.mp hc).2⟩
  rcases Bool.or_eq_true_iff.mp h with halpha | hdigit
  · rcases Bool.or_eq_true_iff.mp halpha with hupper | hlower
    · exact Or.inl (of_decide_eq_true hupper)
    · exact Or.inr (Or.inl (hrange hlower))
  · exact Or.inr (Or.inr (hrange hdigit))

theorem toNat_lt_of_isAlphanum {c : Char} (h : c.isAlphanum = true) : c.toNat < 128 := by
  have hrange := toNat_of_isAlphanum h
  omega

theorem not_isBlank_of_isAlphanum {c : Char} (h : c.isAlphanum = true) : isBlank c = false := by
  have hrange := toNat_of_isAlphanum h
  simp [isBlank]
  omega

theorem toLower_of_not_isUpper {c : Char} (h : ¬ c.isUpper = true) : c.toLower = c :=
  dif_neg fun hrange => h (decide_eq_true hrange)

/-- What is a word of small letters once its capitals are made small is made of letters. -/
theorem isAlphanum_of_toLower {name word : List Char} (h : name.map Char.toLower = word)
    (hword : word.all Char.isLower = true) : ∀ c ∈ name, c.isAlphanum = true := by
  intro c hc
  have hlower : c.toLower.isLower = true :=
    List.all_eq_true.mp hword _ (h ▸ List.mem_map_of_mem hc)
  have halpha : c.isAlpha = true := by
    by_cases hupper : c.isUpper = true
    · exact Bool.or_eq_true_iff.mpr (Or.inl hupper)
    · rw [toLower_of_not_isUpper hupper] at hlower
      exact Bool.or_eq_true_iff.mpr (Or.inr hlower)
  exact Bool.or_eq_true_iff.mpr (Or.inl halpha)

/-! ## Blanks at the ends -/

/-- Blanks, and nothing else. -/
def Blanks (w : List Char) : Prop := ∀ c ∈ w, isBlank c = true

instance (w : List Char) : Decidable (Blanks w) :=
  decidable_of_iff (w.all isBlank = true) List.all_eq_true

theorem Blanks.nil : Blanks [] := fun _ h => absurd h List.not_mem_nil

theorem Blanks.reverse {w : List Char} (hw : Blanks w) : Blanks w.reverse :=
  fun c hc => hw c (List.mem_reverse.mp hc)

theorem ne_of_isBlank {c x : Char} (hc : isBlank c = true) (hx : isBlank x = false) : c ≠ x := by
  rintro rfl
  rw [hc] at hx
  cases hx

/-- A text that begins and ends with something that is not blank. -/
structure Solid (t : List Char) : Prop where
  head : ∃ c r, t = c :: r ∧ isBlank c = false
  last : ∃ l c, t = l ++ [c] ∧ isBlank c = false

namespace Solid

/-- Two such characters with anything between them. -/
theorem of_ends {o c : Char} (ho : isBlank o = false) (hc : isBlank c = false) (m : List Char) :
    Solid (o :: (m ++ [c])) :=
  ⟨⟨o, _, rfl, ho⟩, ⟨o :: m, c, List.cons_append.symm, hc⟩⟩

/-- A word without blanks. -/
theorem of_all {t : List Char} (hne : t ≠ []) (h : ∀ c ∈ t, isBlank c = false) : Solid t := by
  obtain ⟨c, r, rfl⟩ := List.exists_cons_of_ne_nil hne
  exact ⟨⟨c, r, rfl, h c List.mem_cons_self⟩,
    ⟨_, _, (List.dropLast_concat_getLast hne).symm, h _ (List.getLast_mem hne)⟩⟩

/-- Solid ends, with anything between them. -/
theorem append {a b : List Char} (ha : Solid a) (m : List Char) (hb : Solid b) :
    Solid (a ++ (m ++ b)) := by
  obtain ⟨c, r, rfl, hc⟩ := ha.head
  obtain ⟨l, e, rfl, he⟩ := hb.last
  refine ⟨⟨c, _, rfl, hc⟩, ⟨c :: r ++ (m ++ l), e, ?_, he⟩⟩
  rw [List.append_assoc, List.append_assoc]

theorem separated {a b : List Char} (ha : Solid a) (w : List Char) (c : Char) (w' : List Char)
    (hb : Solid b) : Solid (a ++ (w ++ c :: (w' ++ b))) := by
  have hmiddle := ha.append (w ++ c :: w') hb
  rwa [List.append_assoc, List.cons_append] at hmiddle

/-- A word that is known. -/
theorem of_word {t : List Char} (hne : t ≠ []) (h : t.all (!isBlank ·) = true) : Solid t :=
  of_all hne fun c hc => (Bool.not_eq_true' _).mp (List.all_eq_true.mp h c hc)

theorem ne_nil {t : List Char} (h : Solid t) : t ≠ [] := by
  obtain ⟨c, r, rfl, -⟩ := h.head
  exact List.cons_ne_nil c r

/-- The blanks around it are cut off, and nothing else. -/
theorem trim_padded {t : List Char} (h : Solid t) {w w' : List Char} (hw : Blanks w)
    (hw' : Blanks w') : trim (w ++ (t ++ w')) = t := by
  have hstart : trimStart (w ++ (t ++ w')) = t ++ w' := by
    obtain ⟨c, r, rfl, hc⟩ := h.head
    rw [trimStart, List.dropWhile_append_of_pos hw, List.cons_append, List.dropWhile_cons, hc,
      if_neg Bool.false_ne_true]
  obtain ⟨l, c, rfl, hc⟩ := h.last
  rw [trim, hstart, trimEnd, List.reverse_append, List.dropWhile_append_of_pos hw'.reverse,
    ← trimEnd, trimEnd_append_solid _ _ hc]

theorem trim {t : List Char} (h : Solid t) : Text.trim t = t := by
  have hpadded := h.trim_padded Blanks.nil Blanks.nil
  rwa [List.append_nil, List.nil_append] at hpadded

end Solid

/-! ## The questions, one by one -/

/-- The four words that stand for a value. -/
def valueWords : List String := ["true", "false", "null", "undefined"]

theorem ofTrimmed_of_not_word (ambient : Ambient) {text : List Char}
    (h : ∀ w ∈ valueWords, text ≠ w.toList) :
    Argument.ofTrimmed ambient text = match number? text with
      | some n => .ok (.number n)
      | none =>
        match dequote? text with
        | some s => .ok (.str (String.ofList s))
        | none =>
          if Argument.isLiteral text then Argument.ofLiteral ambient text
          else .ok (.raw (String.ofList text)) := by
  rewrite [Argument.ofTrimmed, if_neg (h "true" (by decide)), if_neg (h "false" (by decide)),
    if_neg (h "null" (by decide)), if_neg (h "undefined" (by decide))]
  rfl

/-- Those words begin with a letter, so no text that begins as a number does is one of them. -/
theorem ne_word_of_number {c : Char} (hc : c = '-' ∨ Decimal.isDigit c = true) (r : List Char) :
    ∀ w ∈ valueWords, c :: r ≠ w.toList := by
  have hletter : ∀ w ∈ valueWords, ∃ d s, w.toList = d :: s ∧ Decimal.isDigit d = false ∧ d ≠ '-' := by
    intro w hw
    simp only [valueWords, List.mem_cons, List.not_mem_nil, or_false] at hw
    rcases hw with rfl | rfl | rfl | rfl <;> exact ⟨_, _, rfl, by decide, by decide⟩
  intro w hw he
  obtain ⟨d, s, hcons, hd, hm⟩ := hletter w hw
  rw [hcons] at he
  obtain ⟨rfl, -⟩ := List.cons.inj he
  rcases hc with hc | hc
  · exact hm hc
  · rw [hd] at hc
    cases hc

/-- A number starts with a minus sign or a digit. -/
theorem number?_eq_none {c : Char} (hm : c ≠ '-') (hd : Decimal.isDigit c = false) (r : List Char) :
    number? (c :: r) = none := by
  have hall : ∀ w, Decimal.allDigits (c :: w) = false := fun w => by
    rw [Decimal.allDigits, List.all_cons, hd, Bool.false_and, Bool.and_false]
  unfold number?
  split
  next negative body h =>
  split at h
  · exact absurd (List.cons.inj ‹_›).1 hm
  · cases h
    -- what stands in front of the point is not all digits: it is empty, or begins with `c`
    by_cases hp : c = '.'
    · rw [cut, if_pos hp]
      rfl
    · rw [cut, if_neg hp]
      split
      · rename_i whole hcut
        obtain ⟨rfl, -⟩ := Prod.mk.inj hcut
        rw [hall, if_neg Bool.false_ne_true]
      · rename_i whole frac hcut
        obtain ⟨rfl, -⟩ := Prod.mk.inj hcut
        rw [hall, Bool.false_and, if_neg Bool.false_ne_true]

/-- A string literal starts with a quote. -/
theorem dequote?_eq_none {c : Char} (h : Scan.isQuote c = false) (r : List Char) :
    dequote? (c :: r) = none := by
  rw [dequote?, h, Bool.false_and, if_neg Bool.false_ne_true]

/-! ## Literals in brackets -/

/-- A text that starts with a bracket is no word, no number and no string. -/
theorem ofTrimmed_of_bracket (ambient : Ambient) {o : Char} (ho : o = '[' ∨ o = '\x7b')
    (r : List Char) : Argument.ofTrimmed ambient (o :: r) = Argument.ofLiteral ambient (o :: r) := by
  have hother : o ≠ '-' ∧ Decimal.isDigit o = false ∧ Scan.isQuote o = false ∧
      ∀ w ∈ valueWords, w.toList.head? ≠ some o := by rcases ho with rfl | rfl <;> decide
  have hword : ∀ w ∈ valueWords, o :: r ≠ w.toList := fun w hw he =>
    hother.2.2.2 w hw (by rw [← he]; rfl)
  have hliteral : Argument.isLiteral (o :: r) = true := by
    rcases ho with rfl | rfl <;> simp [Argument.isLiteral]
  rw [ofTrimmed_of_not_word ambient hword, number?_eq_none hother.1 hother.2.1,
    dequote?_eq_none hother.2.2.1]
  simp only [hliteral, if_true]

end Polyshell.Mongo
