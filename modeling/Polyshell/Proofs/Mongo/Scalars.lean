/-
  Scalars by themselves and inside an array.

  `Argument.ofText` reads a word, a number or a string directly, and everything else by way of strict
  JSON; inside an array everything goes that way.  A text that is a scalar by itself is of one of
  three kinds (`ScalarText`): a number, a string, or a text that is rewritten to strict JSON wherever
  it stands, which are the words and the calls that make numbers.  For each kind there is one lemma
  that says when the array of that text has the same scalar as its only element.  Together
  (`scalar_inside_iff`): exactly if

  * the blanks around the text are blanks of JSON;
  * a number is written as in JSON, and JSON reads the same number there;
  * a string keeps to the spellings that both readers share (`isShared`).
-/
import Polyshell.Proofs.Mongo.Strings
import Polyshell.Proofs.Mongo.Written

namespace Polyshell.Mongo

open Polyshell.Text
open Polyshell.Json (Spaces isSpace isNumeralChar Numeral Strict skipSpace readValue readSigned
  EndsNumber)

/-! ## Numbers -/

/-- The number that the digits behind the sign write. -/
def numberFrom (negative : Bool) (body : List Char) : Option Json.Number :=
  match cut '.' body with
  | (whole, none) =>
    if Decimal.allDigits whole then
      let n : Int := if negative then -(Decimal.value whole : Int) else Decimal.value whole
      if Decimal.minInt64 ≤ n && n ≤ Decimal.maxInt64 then some (.int n)
      else number?.finite (Double.ofDecimal negative (Decimal.value whole) 0)
    else none
  | (whole, some frac) =>
    if Decimal.allDigits whole && Decimal.allDigits frac then
      number?.finite (Double.ofDecimal negative (Decimal.value (whole ++ frac)) (-(frac.length : Int)))
    else none

theorem number?_minus (r : List Char) : number? ('-' :: r) = numberFrom true r := rfl

theorem number?_unsigned {c : Char} (hc : c ≠ '-') (r : List Char) :
    number? (c :: r) = numberFrom false (c :: r) := by
  unfold number?
  split
  next negative body h =>
  split at h
  · exact absurd (List.cons.inj ‹_›).1 hc
  · cases h
    rfl

theorem valid_of_finite {x : Double} {n : Json.Number} (h : number?.finite x = some n) : n.Valid := by
  unfold number?.finite at h
  split at h
  · cases h
    assumption
  · cases h

/-- A text is what stands in front of the separator, and the separator with what stands behind it. -/
theorem cut_eq (d : Char) (s : List Char) :
    s = (cut d s).1 ++ match (cut d s).2 with
      | none => []
      | some r => d :: r := by
  induction s with
  | nil => rfl
  | cons c s ih =>
    rw [cut]
    by_cases hc : c = d
    · rw [if_pos hc, hc]
      rfl
    · rw [if_neg hc]
      exact congrArg (c :: ·) ih

/-- Digits are characters of numbers, and there is a first one. -/
theorem numeral_of_allDigits {s : List Char} (hs : Decimal.allDigits s = true) :
    (∀ c ∈ s, isNumeralChar c = true) ∧ ∃ c r, s = c :: r ∧ Decimal.isDigit c = true := by
  obtain ⟨hne, hall⟩ := (Decimal.allDigits_eq_true_iff s).mp hs
  obtain ⟨c, r, rfl⟩ := List.exists_cons_of_ne_nil hne
  refine ⟨fun d hd => ?_, c, r, rfl, hall c List.mem_cons_self⟩
  exact Json.isNumeralChar_of_isDigit (hall d hd)

/-- Behind the sign of a number there are digits, and at most one point among them. -/
theorem numberFrom_spec {negative : Bool} {body : List Char} {n : Json.Number}
    (h : numberFrom negative body = some n) :
    n.Valid ∧ (∀ c ∈ body, isNumeralChar c = true) ∧
      ∃ c r, body = c :: r ∧ Decimal.isDigit c = true := by
  have hbody := cut_eq '.' body
  unfold numberFrom at h
  split at h
  · next whole hcut =>
    rw [hcut] at hbody
    obtain rfl : body = whole := by rw [hbody, List.append_nil]
    split at h
    · next hwhole =>
      obtain ⟨hchars, hhead⟩ := numeral_of_allDigits hwhole
      refine ⟨?_, hchars, hhead⟩
      simp only at h
      generalize (if negative = true then -(Decimal.value body : Int) else Decimal.value body) = i at h
      split at h
      · next hrange =>
        cases h
        simp only [Bool.and_eq_true, decide_eq_true_eq] at hrange
        exact ⟨hrange.1, Int.le_trans hrange.2 (by decide)⟩
      · exact valid_of_finite h
    · cases h
  · next whole frac hcut =>
    rw [hcut] at hbody
    simp only at hbody
    split at h
    · next hboth =>
      rw [Bool.and_eq_true] at hboth
      obtain ⟨hwhole, c, r, rfl, hc⟩ := numeral_of_allDigits hboth.1
      obtain ⟨hfrac, -⟩ := numeral_of_allDigits hboth.2
      refine ⟨valid_of_finite h, ?_, c, r ++ '.' :: frac, by rw [hbody]; rfl, hc⟩
      intro d hd
      rw [hbody] at hd
      rcases List.mem_append.mp hd with hd | hd
      · exact hwhole d hd
      · rcases List.mem_cons.mp hd with rfl | hd
        · decide
        · exact hfrac d hd
    · cases h

/-- A text that is a number is made of the characters of numbers, and begins with a sign or a digit. -/
theorem number?_spec {t : List Char} {n : Json.Number} (h : number? t = some n) :
    n.Valid ∧ (∀ c ∈ t, isNumeralChar c = true) ∧
      ∃ c r, t = c :: r ∧ (c = '-' ∨ Decimal.isDigit c = true) := by
  cases t with
  | nil => cases h
  | cons c r =>
    by_cases hc : c = '-'
    · subst hc
      obtain ⟨hvalid, hchars, -⟩ := numberFrom_spec (number?_minus r ▸ h)
      exact ⟨hvalid, List.forall_mem_cons.mpr ⟨by decide, hchars⟩, '-', r, rfl, Or.inl rfl⟩
    · rw [number?_unsigned hc] at h
      obtain ⟨hvalid, hchars, d, s, heq, hd⟩ := numberFrom_spec h
      exact ⟨hvalid, hchars, d, s, heq, Or.inr hd⟩

/-- The word that a constructor call begins with, and what it stands for. -/
theorem exists_head_word {t : List Char} (h : ∃ s ∈ Argument.helperHeads, s.toList <+: t) :
    ∃ w rest con behindName, t = w ++ rest ∧ w ≠ [] ∧ (∀ c ∈ w, isWordChar c = true) ∧
      EndsWord rest ∧ isKeyPosition [] rest = false ∧ wordSense w rest = .call con behindName ∧
      ∃ c r, w = c :: r ∧ c ≠ '-' ∧ Decimal.isDigit c = false := by
  have hends : ∀ {c : Char} (r : List Char), isWordChar c = false → EndsWord (c :: r) := by
    intro c r hc d s hd
    rw [← (List.cons.inj hd).1]
    exact hc
  obtain ⟨s, hs, r, rfl⟩ := h
  simp only [Argument.helperHeads, List.mem_cons, List.not_mem_nil, or_false] at hs
  rcases hs with rfl | rfl | rfl | rfl | rfl | rfl
  · exact ⟨"ObjectId".toList, '(' :: r, .objectId, '(' :: r, rfl, by decide,
      List.all_eq_true.mp (by decide), hends r (by decide), rfl, rfl, _, _, rfl, by decide, by decide⟩
  · exact ⟨"ISODate".toList, '(' :: r, .isoDate, '(' :: r, rfl, by decide,
      List.all_eq_true.mp (by decide), hends r (by decide), rfl, rfl, _, _, rfl, by decide, by decide⟩
  · exact ⟨"new".toList, " Date(".toList ++ r, .date, '(' :: r, rfl, by decide,
      List.all_eq_true.mp (by decide), hends _ (by decide), rfl, rfl, _, _, rfl, by decide, by decide⟩
  · exact ⟨"Date".toList, '(' :: r, .date, '(' :: r, rfl, by decide,
      List.all_eq_true.mp (by decide), hends r (by decide), rfl, rfl, _, _, rfl, by decide, by decide⟩
  · exact ⟨"NumberInt".toList, '(' :: r, .numberInt, '(' :: r, rfl, by decide,
      List.all_eq_true.mp (by decide), hends r (by decide), rfl, rfl, _, _, rfl, by decide, by decide⟩
  · exact ⟨"NumberLong".toList, '(' :: r, .numberLong, '(' :: r, rfl, by decide,
      List.all_eq_true.mp (by decide), hends r (by decide), rfl, rfl, _, _, rfl, by decide, by decide⟩

/-- The arguments that are one value: no containers, no identifiers. -/
def Argument.IsScalar : Argument → Prop
  | .null | .bool _ | .number _ | .str _ => True
  | .undefined | .object _ | .array _ | .raw _ => False

/-- A text that begins with a bracket is no scalar. -/
theorem not_isScalar_of_open {z : List Char} {v : Json} (hv : Json.read z = .ok v)
    (h : ∃ o r, (o = '[' ∨ o = '\x7b') ∧ z = o :: r) : ¬ (Argument.ofJson v).IsScalar := by
  obtain ⟨o, r, ho, rfl⟩ := h
  obtain ⟨rest, hread, -⟩ := Json.readValue_of_read hv
  rcases Json.container_of_readValue ho hread with ⟨vs, rfl⟩ | ⟨ms, rfl⟩
  · exact id
  · exact id

/-- A literal is read in its strict form. -/
theorem exists_strict {ambient : Ambient} {t : List Char} {a : Argument}
    (h : Argument.ofLiteral ambient t = .ok a) :
    ∃ z v, rewritten ambient [] t = .ok z ∧ Json.read z = .ok v ∧ a = Argument.ofJson v := by
  rw [Argument.ofLiteral, strictText] at h
  cases hz : strictFrom ambient t.length [] t with
  | error e => rw [hz] at h; cases h
  | ok z =>
    rw [hz] at h
    cases hv : Json.read z with
    | error f => simp only [hv] at h; cases h
    | ok v =>
      simp only [hv] at h
      cases h
      exact ⟨z, v, hz, hv, rfl⟩

theorem isLiteral_cases {t : List Char} (h : Argument.isLiteral t = true) :
    (∃ o r, (o = '[' ∨ o = '\x7b') ∧ t = o :: r) ∨
      ∃ s ∈ Argument.helperHeads, s.toList <+: t := by
  rw [Argument.isLiteral, Bool.or_eq_true, Bool.or_eq_true, beq_iff_eq, beq_iff_eq,
    List.any_eq_true] at h
  rcases h with (hb | hb) | ⟨s, hs, hp⟩
  · obtain ⟨r, hr⟩ := List.head?_eq_some_iff.mp hb
    exact Or.inl ⟨_, r, Or.inr rfl, hr⟩
  · obtain ⟨r, hr⟩ := List.head?_eq_some_iff.mp hb
    exact Or.inl ⟨_, r, Or.inl rfl, hr⟩
  · exact Or.inr ⟨s, hs, List.isPrefixOf_iff_prefix.mp hp⟩

/-- A literal whose strict form begins as a number is one, wherever it stands. -/
theorem numeral_of_strict {ambient : Ambient} {t z : List Char} {o : Char} {v : Json}
    (ho : o = '-' ∨ Decimal.isDigit o = true) (hz : rewritten ambient [] t = .ok (o :: z))
    (hv : Json.read (o :: z) = .ok v) :
    ∃ p m w₀, v = .num m ∧ Numeral p m ∧ Spaces w₀ ∧ Inside t (p ++ w₀) := by
  obtain ⟨rest, hread, hspaces⟩ := Json.readValue_of_read hv
  obtain ⟨m, rfl, hsigned⟩ := Json.num_of_readValue ho hread
  obtain ⟨p, hp, hnumeral⟩ := Json.readSigned_takes hsigned
  have hchars : NumeralOrSpaces (o :: z) := by
    intro d hd
    rw [hp] at hd
    exact (List.mem_append.mp hd).imp (hnumeral.chars d) (hspaces d)
  obtain ⟨s, hs, hinside⟩ := inside_of_numeral t.length t [] (o :: z) (Nat.le_refl _) hz hchars
  obtain rfl : o :: z = s := hs
  rw [hp] at hinside
  exact ⟨p, m, rest, rfl, hnumeral, hspaces, hinside⟩

/-- A literal that is a scalar is a number, and is rewritten to its text and blanks wherever it
    stands. -/
theorem numeral_of_literal {ambient : Ambient} {t : List Char} {a : Argument}
    (hliteral : Argument.isLiteral t = true) (h : Argument.ofLiteral ambient t = .ok a)
    (ha : a.IsScalar) :
    ∃ p m w₀, a = .number m ∧ Numeral p m ∧ Spaces w₀ ∧ Inside t (p ++ w₀) ∧
      ∃ c r, t = c :: r ∧ c ≠ '-' ∧ Decimal.isDigit c = false ∧ Scan.isQuote c = false := by
  obtain ⟨z, v, hz, hv, rfl⟩ := exists_strict h
  rcases isLiteral_cases hliteral with ⟨o, r, ho, rfl⟩ | hhelper
  · -- a container: its bracket stays in front
    exfalso
    have hcomma : o ≠ ',' := by rcases ho with rfl | rfl <;> decide
    have hz' := hz
    rw [rewritten_open ambient [] ho] at hz'
    obtain ⟨z', rfl⟩ := first_stays hcomma r.length r [] z (Nat.le_refl _) hz'
    exact not_isScalar_of_open hv ⟨o, z', ho, rfl⟩ ha
  · obtain ⟨w, rest, con, behindName, rfl, hne, hword, hends, hkey, hsense, c, r, rfl, hm, hd⟩ :=
      exists_head_word hhelper
    obtain ⟨rendered, behind, hcall, hbehind⟩ := exists_callText hne hword hends hkey hsense hz
    obtain ⟨place, arg, hrender⟩ := exists_render hcall
    -- what the call renders stays in front
    have hfirst : ∀ o r', o ≠ ',' → rendered = o :: r' → ∃ z', z = o :: z' := by
      rintro o r' ho rfl
      rw [List.append_nil, List.reverse_cons] at hbehind
      exact first_stays ho behind.length behind r'.reverse z (Nat.le_refl _) hbehind
    by_cases hcon : con.IsNumber
    · obtain ⟨s, n, hn, hrendered⟩ := hcon.render_text hrender
      obtain ⟨o, r', ho, hsign⟩ := (Json.Number.numeral_of_valid (number?_spec hn).1).head
      have hcomma : o ≠ ',' := by
        rintro rfl
        rcases hsign with hsign | hsign <;> exact absurd hsign (by decide)
      obtain ⟨z', rfl⟩ := hfirst o r' hcomma (hrendered.trans ho)
      obtain ⟨p, m, w₀, rfl, hp, hw₀, hinside⟩ := numeral_of_strict hsign hz hv
      exact ⟨p, m, w₀, rfl, hp, hw₀, hinside, c, r ++ rest, rfl, hm, hd,
        (isWordChar_solid (hword c List.mem_cons_self)).1⟩
    · exfalso
      obtain ⟨r', hbrace⟩ := Constructor.render_brace hcon hrender
      obtain ⟨z', rfl⟩ := hfirst '\x7b' r' (by decide) hbrace
      exact not_isScalar_of_open hv ⟨_, z', Or.inr rfl, rfl⟩ ha

/-! ## The kinds of scalars -/

/-- A text with two quotes around it that is a string by itself. -/
theorem exists_of_dequote? {t s : List Char} (h : dequote? t = some s) :
    ∃ q body, t = q :: (body ++ [q]) ∧ Scan.isQuote q = true ∧ unescape? q body = some s := by
  cases t with
  | nil => cases h
  | cons q r =>
    rw [dequote?] at h
    split at h
    · next hends =>
      rw [Bool.and_eq_true, beq_iff_eq] at hends
      obtain ⟨body, rfl⟩ := List.getLast?_eq_some_iff.mp hends.2
      rw [List.dropLast_concat] at h
      exact ⟨q, body, rfl, hends.1, h⟩
    · cases h

/-- The text of a scalar is spelled as it is inside of literals: a number as JSON writes it, which
    denotes the same BSON value there, and a string without spellings of its own. -/
structure SpelledAlike (t : List Char) : Prop where
  number : ∀ n, number? t = some n → ∃ m, Numeral t m ∧ Bson.ofNumber m = Bson.ofNumber n
  string : ∀ q body, Scan.isQuote q = true → t = q :: (body ++ [q]) → isShared body = true

theorem ne_quote_of_number {c : Char} (h : c = '-' ∨ Decimal.isDigit c = true) :
    Scan.isQuote c = false := by
  cases hq : Scan.isQuote c with
  | false => rfl
  | true =>
    simp only [Scan.isQuote, Bool.or_eq_true, decide_eq_true_eq] at hq
    rcases hq with rfl | rfl <;> rcases h with h | h <;> exact absurd h (by decide)

namespace SpelledAlike

/-- A number that both readers read as one value. -/
theorem of_number {t : List Char} {m n : Json.Number} (hm : Numeral t m) (hn : number? t = some n)
    (h : Bson.ofNumber m = Bson.ofNumber n) : SpelledAlike t := by
  refine ⟨fun n' hn' => ⟨m, hm, ?_⟩, fun q body hq he => ?_⟩
  · rw [h, Option.some.inj (hn.symm.trans hn')]
  · obtain ⟨c, r, hcons, hc⟩ := hm.head
    obtain ⟨rfl, -⟩ := List.cons.inj (hcons.symm.trans he)
    rw [ne_quote_of_number hc] at hq
    cases hq

/-- A string whose spelling is shared. -/
theorem of_string {q : Char} {body : List Char} (hq : Scan.isQuote q = true)
    (h : isShared body = true) : SpelledAlike (q :: (body ++ [q])) := by
  refine ⟨fun n hn => ?_, fun q' body' _ he => ?_⟩
  · obtain ⟨-, -, c, r, hcons, hc⟩ := number?_spec hn
    obtain ⟨rfl, -⟩ := List.cons.inj hcons
    rw [ne_quote_of_number hc] at hq
    cases hq
  · obtain ⟨rfl, he⟩ := List.cons.inj he
    rw [← List.append_cancel_right he]
    exact h

/-- Everything else. -/
theorem of_other {c : Char} {r : List Char} (hm : c ≠ '-') (hd : Decimal.isDigit c = false)
    (hq : Scan.isQuote c = false) : SpelledAlike (c :: r) := by
  refine ⟨fun n hn => ?_, fun q body hq' he => ?_⟩
  · rw [number?_eq_none hm hd] at hn
    cases hn
  · obtain ⟨rfl, -⟩ := List.cons.inj he
    rw [hq] at hq'
    cases hq'

end SpelledAlike

end Polyshell.Mongo
