/-
  The arguments of calls as a user writes them.

  `Term` lists the ways to write an argument that stand for one value each, and `Term.text` how each
  is written.  Three facts make a term usable inside a command:

  * it begins and ends with something that is not blank (`Term.solid`), so the blanks around it can
    be told from it;
  * every pass over the command leaves it in one piece (`Term.keeps`);
  * by itself it is read as the argument that it stands for (`Term.ofText_argument`).
-/
import Polyshell.Mongo.Command
import Polyshell.Proofs.Mongo.Printed
import Polyshell.Proofs.Mongo.Scanning

namespace Polyshell.Mongo

open Polyshell.Text
open Polyshell.Json (compactText intText)

/-- An argument as it is written. -/
inductive Term where
  | null
  | undefined
  | bool (b : Bool)
  | int (i : Int)
  /-- A string, in double quotes. -/
  | str (s : String)
  /-- An array or object, as compact JSON. -/
  | json (v : Json)
  /-- A bare identifier. -/
  | word (w : List Char)

namespace Term

/-- How one character of a string is written: only the quote and the backslash are escaped. -/
def escapeChar (c : Char) : List Char := if c = '"' ∨ c = '\\' then ['\\', c] else [c]

def text : Term → List Char
  | .null => "null".toList
  | .undefined => "undefined".toList
  | .bool true => "true".toList
  | .bool false => "false".toList
  | .int i => intText i
  | .str s => '"' :: (s.toList.flatMap escapeChar ++ ['"'])
  | .json v => compactText v
  | .word w => w

/-- The argument that it stands for. -/
def argument : Term → Argument
  | .null => .null
  | .undefined => .undefined
  | .bool b => .bool b
  | .int i => .number (.int i)
  | .str s => .str s
  | .json v => Argument.ofJson v
  | .word w => .raw (String.ofList w)

/-- An identifier that is neither a number nor the name of a value. -/
def IsIdentifier (w : List Char) : Prop :=
  w ≠ [] ∧ (∀ c ∈ w, isNameChar c = true) ∧ (∀ c r, w = c :: r → Decimal.isDigit c = false) ∧
    ∀ s ∈ valueWords, w ≠ s.toList

def Valid : Term → Prop
  | .int i => Decimal.minInt64 ≤ i ∧ i ≤ Decimal.maxInt64
  | .json v => IsContainer v ∧ v.Exact ∧ v.nesting < 128
  | .word w => IsIdentifier w
  | _ => True

end Term

/-! ## Names -/

/-- The characters of names, and of collections, are plain. -/
theorem isPlain_of_isCollectionChar {c : Char} (h : Command.isCollectionChar c = true) :
    isPlain c = true ∧ c ≠ '.' := by
  have hall : ∀ i : Fin 128, Command.isCollectionChar (Char.ofNat i.val) = true →
      isPlain (Char.ofNat i.val) = true ∧ Char.ofNat i.val ≠ '.' := by decide
  have hlt : c.toNat < 128 := by
    rw [Command.isCollectionChar, Bool.or_eq_true, Bool.or_eq_true, Bool.or_eq_true,
      decide_eq_true_eq, decide_eq_true_eq, decide_eq_true_eq] at h
    rcases h with ((h | rfl) | rfl) | rfl
    · exact toNat_lt_of_isAlphanum h
    all_goals decide
  have hc := hall ⟨c.toNat, hlt⟩
  simp only [Char.ofNat_toNat] at hc
  exact hc h

theorem isPlain_of_isNameChar {c : Char} (h : isNameChar c = true) : isPlain c = true := by
  refine (isPlain_of_isCollectionChar ?_).1
  simp only [isNameChar, Command.isCollectionChar, Bool.or_eq_true] at h ⊢
  rcases h with (h | h) | h
  · exact Or.inl (Or.inl (Or.inl h))
  · exact Or.inl (Or.inl (Or.inr h))
  · exact Or.inr h

/-! ## Strings and numbers -/

theorem Term.escaped_escapeChar (c : Char) : Escaped (Term.escapeChar c) := by
  rw [Term.escapeChar]
  by_cases hc : c = '"' ∨ c = '\\'
  · rw [if_pos hc]
    exact .pair .nil
  · rw [if_neg hc]
    obtain ⟨hq, hb⟩ := not_or.mp hc
    exact .raw hq hb .nil

theorem Term.escaped (s : List Char) : Escaped (s.flatMap Term.escapeChar) := by
  induction s with
  | nil => exact .nil
  | cons c s ih =>
    rw [List.flatMap_cons]
    exact (Term.escaped_escapeChar c).append ih

/-- What was escaped is read back. -/
theorem unescape?_escaped (s : List Char) :
    unescape? '"' (s.flatMap Term.escapeChar) = some s := by
  induction s with
  | nil => rfl
  | cons c s ih =>
    rw [List.flatMap_cons, Term.escapeChar]
    by_cases hc : c = '"' ∨ c = '\\'
    · have hself : unescapeChar c = [c] := by rcases hc with rfl | rfl <;> rfl
      rw [if_pos hc, List.cons_append, List.singleton_append, unescape?, ih, hself]
      rfl
    · obtain ⟨hq, hb⟩ := not_or.mp hc
      rw [if_neg hc, List.singleton_append, unescape?, if_neg hq, ih]
      · rfl
      · rintro rfl -
        exact hb rfl
      · rintro d r rfl -
        exact hb rfl

theorem dequote?_escaped (s : List Char) :
    dequote? ('"' :: (s.flatMap Term.escapeChar ++ ['"'])) = some s := by
  rw [dequote?, List.getLast?_concat, List.dropLast_concat, if_pos (by decide), unescape?_escaped]

/-- A written whole number is read as that. -/
theorem number?_intText {i : Int} (h : Decimal.minInt64 ≤ i ∧ i ≤ Decimal.maxInt64) :
    number? (intText i) = some (.int i) := by
  have hpoint : ∀ n, '.' ∉ Decimal.digits n := fun n hm =>
    absurd (Decimal.isDigit_of_mem_digits hm) (by decide)
  have hall := Decimal.allDigits_digits i.natAbs
  by_cases hneg : i < 0
  · rw [intText, if_pos hneg]
    simp only [number?, cut_of_not_mem (hpoint _), hall, if_true, Decimal.value_digits]
    rw [show -(i.natAbs : Int) = i by omega, if_pos (by simp [h])]
  · -- no sign is cut off, for the first character is a digit
    obtain ⟨c, r, hcons⟩ := List.exists_cons_of_ne_nil (Decimal.digits_ne_nil i.natAbs)
    have hminus : c ≠ '-' := by
      rintro rfl
      exact absurd (Decimal.isDigit_of_mem_digits (n := i.natAbs) (hcons ▸ List.mem_cons_self))
        (by decide)
    rw [intText, if_neg hneg, hcons]
    unfold number?
    split
    next negative body hm =>
    split at hm
    · exact absurd (List.cons.inj ‹_›).1 hminus
    · cases hm
      rw [← hcons, cut_of_not_mem (hpoint _)]
      simp only [hall, if_true, Decimal.value_digits, Bool.false_eq_true, if_false]
      rw [show (i.natAbs : Int) = i by omega, if_pos (by simp [h])]

/-! ## The three facts -/

namespace Term

theorem isPlain_intText (i : Int) : ∀ c ∈ intText i, isPlain c = true :=
  fun _ hc => isPlain_of_isNumeralChar (Json.isNumeralChar_of_mem_intText hc)

theorem intText_ne_nil (i : Int) : intText i ≠ [] := by
  obtain ⟨c, r, hcons, -⟩ := Json.head_intText i
  rw [hcons]
  exact List.cons_ne_nil c r

/-- The first character of a whole number is in no other kind of argument. -/
theorem intText_ne_word (i : Int) : ∀ w ∈ valueWords, intText i ≠ w.toList := by
  obtain ⟨c, r, htext, hc⟩ := Json.head_intText i
  rw [htext]
  exact ne_word_of_number hc r

theorem not_isBlank_of_isPlain {c : Char} (h : isPlain c = true) : isBlank c = false :=
  (isPlain_spec h).2.2.2.1

/-- An identifier is no literal: every constructor call has a parenthesis. -/
theorem not_isLiteral_of_word {w : List Char} (h : ∀ c ∈ w, isNameChar c = true) :
    Argument.isLiteral w = false := by
  have hhead : ∀ c, isNameChar c = false → w.head? ≠ some c := by
    intro c hc he
    rw [h c (List.mem_of_head? he)] at hc
    cases hc
  have hopen : ∀ s ∈ Argument.helperHeads, s.toList.isPrefixOf w = false := by
    intro s hs
    have hparen : '(' ∈ s.toList := by
      have hall : ∀ s ∈ Argument.helperHeads, '(' ∈ s.toList := by decide
      exact hall s hs
    rw [Bool.eq_false_iff]
    intro hp
    have hmem := (List.isPrefixOf_iff_prefix.mp hp).subset hparen
    exact absurd (h '(' hmem) (by decide)
  rw [Argument.isLiteral, List.any_eq_false.mpr fun s hs => by rw [hopen s hs]; decide]
  simp only [Bool.or_false, Bool.or_eq_false_iff, beq_eq_false_iff_ne]
  exact ⟨hhead _ (by decide), hhead _ (by decide)⟩

section Facts

variable {t : Term} (h : t.Valid)
include h

theorem solid : Solid t.text := by
  cases t with
  | null => exact Solid.of_word (by decide) (by decide)
  | undefined => exact Solid.of_word (by decide) (by decide)
  | bool b => cases b <;> exact Solid.of_word (by decide) (by decide)
  | int i => exact Solid.of_plain (intText_ne_nil i) (isPlain_intText i)
  | str s => exact Solid.of_ends (by decide) (by decide) _
  | json v =>
    have hv : IsContainer v ∧ v.Exact ∧ v.nesting < 128 := h
    obtain ⟨o, m, c, ht, ho, hc⟩ := (Relaxed.compact v).brackets hv.1
    show Solid (compactText v)
    rw [ht]
    exact Solid.of_ends (by rcases ho with rfl | rfl <;> decide)
      (by rcases hc with rfl | rfl <;> decide) m
  | word w => exact Solid.of_all h.1 fun c hc =>
      not_isBlank_of_isPlain (isPlain_of_isNameChar (h.2.1 c hc))

theorem keeps (d : Int) : Keeps d (Scan.at d) t.text (Scan.at d) := by
  cases t with
  | null => exact keeps_word (Int.le_refl d) (by decide)
  | undefined => exact keeps_word (Int.le_refl d) (by decide)
  | bool b => cases b <;> exact keeps_word (Int.le_refl d) (by decide)
  | int i => exact keeps_plain (Int.le_refl d) (isPlain_intText i)
  | str s => exact keeps_quoted (Term.escaped s.toList) d d
  | json v =>
    have hv : IsContainer v ∧ v.Exact ∧ v.nesting < 128 := h
    exact keeps_compactText v (Json.valid_of_exact v hv.2.1) d
  | word w => exact keeps_plain (Int.le_refl d) fun c hc => isPlain_of_isNameChar (h.2.1 c hc)

/-- A term is read as the argument that it stands for. -/
theorem ofText_argument (ambient : Ambient) : Argument.ofText ambient t.text = .ok t.argument := by
  cases t with
  | null => rfl
  | undefined => rfl
  | bool b => cases b <;> rfl
  | int i =>
    have hi : Decimal.minInt64 ≤ i ∧ i ≤ Decimal.maxInt64 := h
    rw [Argument.ofText, (solid h).trim]
    show Argument.ofTrimmed ambient (intText i) = _
    rw [ofTrimmed_of_not_word ambient (intText_ne_word i), number?_intText hi]
    rfl
  | str s =>
    -- the quote in front rules out the words and the numbers, which are tried first
    have hword : ∀ w ∈ valueWords, ∀ r, '"' :: r ≠ w.toList := by
      intro w hw r he
      have hall : ∀ w ∈ valueWords, w.toList.head? ≠ some '"' := by decide
      exact hall w hw (by rw [← he]; rfl)
    rw [Argument.ofText, (solid h).trim]
    show Argument.ofTrimmed ambient ('"' :: (s.toList.flatMap escapeChar ++ ['"'])) = _
    rw [ofTrimmed_of_not_word ambient fun w hw => hword w hw _,
      number?_eq_none (by decide) (by decide), dequote?_escaped]
    simp only [String.ofList_toList]
    rfl
  | json v =>
    obtain ⟨hcontainer, hexact, hdepth⟩ : IsContainer v ∧ v.Exact ∧ v.nesting < 128 := h
    show Argument.ofText ambient (compactText v) = .ok (Argument.ofJson v)
    rw [ofText_compact hcontainer (Json.valid_of_exact v hexact) hdepth,
      Json.reread_of_exact v hexact]
  | word w =>
    have hsolid := solid h
    obtain ⟨hne, hname, hdigit, hword⟩ : IsIdentifier w := h
    obtain ⟨c, r, rfl⟩ := List.exists_cons_of_ne_nil hne
    have hc := hname c List.mem_cons_self
    have hminus : c ≠ '-' := by
      rintro rfl
      exact absurd hc (by decide)
    have hquote := (isPlain_spec (isPlain_of_isNameChar hc)).1
    rw [Argument.ofText, hsolid.trim]
    show Argument.ofTrimmed ambient (c :: r) = _
    rw [ofTrimmed_of_not_word ambient hword, number?_eq_none hminus (hdigit c r rfl),
      dequote?_eq_none hquote, not_isLiteral_of_word hname]
    rfl

end Facts
end Term
end Polyshell.Mongo
