/-
  The rewriting, token by token and without looking back.

  A turn of the rewriting looks at what was written: a closing bracket takes back a comma, and a
  word behind a comma or a brace may be a key.  What becomes of a text can be said without that.
  `Token ambient t r v` — in front of `r`, the text `t` is one token that becomes `v` — drops a
  comma together with the bracket that will take it back, and asks of a key only that a colon
  follows.  `Forward ambient t s` strings tokens together.

  1. **Calls** — what a word and the text behind it are taken for is a `ConstructorCall`
     (`exists_constructorCall`), the way back from `ConstructorCall.exists_word`.

  2. **The induction** — over the length of the text that is left, with one thing to know about what
     was written: if it ends with a comma, no bracket will take that comma back
     (`CommaStays`).  A comma that is taken back is passed over with the blanks and the bracket
     behind it, in one step of the induction (`forward_of_rewritten`).

  3. **Reading it off** — a first character that becomes known tells the token in front of the text:
     one lemma for each kind of character.
-/
import Polyshell.Proofs.Mongo.Constructors

namespace Polyshell.Mongo

open Polyshell.Text
open Polyshell.Json (Spaces isSpace isNumeralChar Strict Numeral)

/-! ## Calls -/

theorem cut_spec {d : Char} {s a b : List Char} (h : cut d s = (a, some b)) :
    s = a ++ d :: b ∧ d ∉ a := by
  induction s generalizing a with
  | nil => cases h
  | cons c s ih =>
    rw [cut] at h
    by_cases hc : c = d
    · rw [if_pos hc] at h
      cases h
      exact ⟨by rw [hc, List.nil_append], List.not_mem_nil⟩
    · rw [if_neg hc] at h
      obtain ⟨rfl, hb⟩ := Prod.mk.inj h
      obtain ⟨hs, hd⟩ := ih (Prod.ext rfl hb)
      exact ⟨by rw [List.cons_append, ← hs], List.not_mem_cons_of_ne_of_not_mem (Ne.symm hc) hd⟩

theorem Constructor.name_of_ofName? {word : List Char} {con : Constructor}
    (h : Constructor.ofName? word = some con) : word = con.name.toList := by
  have hname := List.find?_some h
  exact (beq_iff_eq.mp hname).symm

theorem Constructor.of_ofNewName? {word : List Char} {con : Constructor}
    (h : Constructor.ofNewName? word = some con) :
    (con = .objectId ∨ con = .date) ∧ word = con.name.toList := by
  unfold Constructor.ofNewName? at h
  split at h
  · next hname =>
    cases h
    exact ⟨Or.inl rfl, Constructor.name_of_ofName? hname⟩
  · next hname =>
    cases h
    exact ⟨Or.inr rfl, Constructor.name_of_ofName? hname⟩
  · cases h

/-- A word that stands for a call is the head of one. -/
theorem exists_head {w rest behindName : List Char} {con : Constructor} (hrest : EndsWord rest)
    (hs : wordSense w rest = .call con behindName) :
    ∃ h, ConstructorHead con h ∧ w ++ rest = h ++ behindName := by
  by_cases hnew : w = "new".toList
  · rw [wordSense, if_pos hnew] at hs
    cases hname : Constructor.ofNewName? ((trimStart rest).takeWhile isNameChar) with
    | none =>
      simp only [hname] at hs
      cases hs
    | some c =>
      simp only [hname] at hs
      cases hs
      obtain ⟨hcon, hword⟩ := Constructor.of_ofNewName? hname
      have hsplit : rest = rest.takeWhile isBlank ++
          (con.name.toList ++ (trimStart rest).dropWhile isNameChar) := by
        rw [← hword, List.takeWhile_append_dropWhile, trimStart, List.takeWhile_append_dropWhile]
      refine ⟨"new".toList ++ (rest.takeWhile isBlank ++ con.name.toList),
        .new hcon (fun b hb => List.mem_takeWhile_imp hb) ?_, ?_⟩
      · -- without blanks the name would have been part of the word
        intro hnone
        rw [hnone, List.nil_append] at hsplit
        obtain ⟨b, r, hb⟩ : ∃ b r, rest = b :: r ∧ isWordChar b = true := by
          rcases hcon with rfl | rfl
          · exact ⟨_, _, hsplit, by decide⟩
          · exact ⟨_, _, hsplit, by decide⟩
        rw [hrest b r hb.1] at hb
        cases hb.2
      · rw [hnew, List.append_assoc, List.append_assoc, ← hsplit]
  · by_cases hu : w = "undefined".toList
    · rw [wordSense, if_neg hnew, if_pos hu] at hs
      cases hs
    · rw [wordSense, if_neg hnew, if_neg hu] at hs
      cases hname : Constructor.ofName? w with
      | none =>
        rw [hname] at hs
        cases hs
      | some c =>
        rw [hname] at hs
        cases hs
        exact ⟨con.name.toList, .name con, by rw [Constructor.name_of_ofName? hname]⟩

/-- What a word and the text behind it are taken for is a call of a constructor. -/
theorem exists_constructorCall {ambient : Ambient} {w rest behindName v behind : List Char}
    {con : Constructor} (hrest : EndsWord rest) (hs : wordSense w rest = .call con behindName)
    (hc : callText ambient con behindName = .ok (v, behind)) :
    ∃ arg t place, w ++ rest = t ++ behind ∧ ConstructorCall con arg t ∧
      con.render ambient place (trim arg) = .ok v := by
  obtain ⟨h, hhead, hsplit⟩ := exists_head hrest hs
  unfold callText at hc
  split at hc
  · next r hparen =>
    split at hc
    · cases hc
    · next inner b hcut =>
      obtain ⟨rfl, hinner⟩ := cut_spec hcut
      cases hrender : con.render ambient b.length (trim inner) with
      | error e =>
        rw [hrender] at hc
        cases hc
      | ok x =>
        rw [hrender] at hc
        cases hc
        have hbehind : behindName.takeWhile isBlank ++ '(' :: (inner ++ ')' :: behind) =
            behindName := by
          rw [← hparen, trimStart, List.takeWhile_append_dropWhile]
        refine ⟨inner, h ++ (behindName.takeWhile isBlank ++ '(' :: (inner ++ [')'])), _, ?_,
          .mk hhead (fun c hb => List.mem_takeWhile_imp hb) hinner, hrender⟩
        rw [hsplit]
        conv_lhs => rw [← hbehind]
        simp only [List.append_assoc, List.cons_append, List.nil_append]
  · cases hc

theorem undefined_of_wordSense {w rest : List Char} (hs : wordSense w rest = .undefined) :
    w = "undefined".toList := by
  by_cases hnew : w = "new".toList
  · rw [wordSense, if_pos hnew] at hs
    simp only at hs
    split at hs <;> cases hs
  · by_cases hu : w = "undefined".toList
    · exact hu
    · rw [wordSense, if_neg hnew, if_neg hu] at hs
      split at hs <;> cases hs

/-! ## What calls become -/

/-- Characters of numbers, the first of them a sign or a digit. -/
def NumeralLike (t : List Char) : Prop :=
  (∀ c ∈ t, isNumeralChar c = true) ∧ ∃ c r, t = c :: r ∧ (c = '-' ∨ Decimal.isDigit c = true)

theorem NumeralLike.of_numeral {t : List Char} {n : Json.Number} (h : Numeral t n) :
    NumeralLike t :=
  ⟨h.chars, h.head⟩

namespace Constructor

/-- The call of a number becomes a number. -/
theorem IsNumber.numeralLike {con : Constructor} (h : con.IsNumber) {ambient : Ambient}
    {place : Nat} {arg v : List Char} (hv : con.render ambient place arg = .ok v) :
    NumeralLike v := by
  obtain ⟨s, n, hn, rfl⟩ := h.render_text hv
  exact .of_numeral (Json.Number.numeral_of_valid (number?_spec hn).1)

/-- Any other call becomes an object with one member, a string or a number. -/
theorem exists_wrapped {con : Constructor} (h : ¬ con.IsNumber) {ambient : Ambient} {place : Nat}
    {arg v : List Char} (hv : con.render ambient place arg = .ok v) :
    ∃ key x, v = '\x7b' :: '"' :: (key ++ '"' :: ':' :: (x ++ ['\x7d'])) ∧ Json.Body key key ∧
      ((∃ s, x = Json.stringText s) ∨ NumeralLike x) := by
  have hoid := Json.Body.escaped "$oid".toList
  have hdate := Json.Body.escaped "$date".toList
  have hnumber : ∀ {t n}, number? t = some n → NumeralLike n.text := fun hn =>
    .of_numeral (Json.Number.numeral_of_valid (number?_spec hn).1)
  cases con with
  | numberInt => exact absurd (Or.inl rfl) h
  | numberLong => exact absurd (Or.inr rfl) h
  | objectId =>
    simp only [render] at hv
    split at hv
    · cases hv
      exact ⟨_, _, rfl, hoid, Or.inl ⟨_, rfl⟩⟩
    · split at hv
      · cases hv
        exact ⟨_, _, rfl, hoid, Or.inl ⟨_, rfl⟩⟩
      · cases hv
  | isoDate | date =>
    simp only [render] at hv
    split at hv
    · cases hv
      exact ⟨_, _, rfl, hdate, Or.inr ⟨fun _ => Json.isNumeralChar_of_mem_intText,
        Json.head_intText _⟩⟩
    · split at hv
      · cases hv
        exact ⟨_, _, rfl, hdate, Or.inl ⟨_, rfl⟩⟩
      · split at hv
        · next n hn =>
          cases hv
          exact ⟨_, _, rfl, hdate, Or.inr (hnumber hn)⟩
        · cases hv

/-- What a call becomes ends with no blank and no comma. -/
theorem exists_last {con : Constructor} {ambient : Ambient} {place : Nat} {arg v : List Char}
    (hv : con.render ambient place arg = .ok v) :
    ∃ s c, v = s ++ [c] ∧ isBlank c = false ∧ c ≠ ',' := by
  by_cases h : con.IsNumber
  · obtain ⟨hchars, c, r, rfl, -⟩ := h.numeralLike hv
    have hlast := hchars _ (List.getLast_mem (List.cons_ne_nil c r))
    refine ⟨_, _, (List.dropLast_concat_getLast (List.cons_ne_nil c r)).symm,
      not_isBlank_of_isNumeralChar hlast, ?_⟩
    intro he
    rw [he] at hlast
    exact absurd hlast (by decide)
  · obtain ⟨key, x, rfl, -, -⟩ := exists_wrapped h hv
    exact ⟨'\x7b' :: '"' :: (key ++ '"' :: ':' :: x), '\x7d', by simp, by decide, by decide⟩

end Constructor

/-! ## Tokens -/

/-- Nothing, or a comma that goes with the bracket behind it. -/
inductive Dropped : List Char → Prop
  | nothing : Dropped []
  | comma {w : List Char} (hw : Blanks w) : Dropped (',' :: w)

/-- A bracket that closes. -/
def IsCloser (c : Char) : Prop := c = '\x7d' ∨ c = ']'

/-- `Token ambient t r v` — in front of `r`, the text `t` is one token, and becomes `v`. -/
inductive Token (ambient : Ambient) : List Char → List Char → List Char → Prop
  | string {q : Char} {b r s : List Char} (hq : Scan.isQuote q = true)
      (h : copyString q (b ++ r) = (s, r)) : Token ambient (q :: b) r ('"' :: s)
  | key {w r : List Char} (hne : w ≠ []) (hw : ∀ c ∈ w, isWordChar c = true)
      (hr : (trimStart r).head? = some ':') : Token ambient w r ('"' :: (w ++ ['"']))
  | plain {w r : List Char} (hne : w ≠ []) (hw : ∀ c ∈ w, isWordChar c = true)
      (hr : EndsWord r) : Token ambient w r w
  | undefined {r : List Char} (hr : EndsWord r) :
      Token ambient ['u', 'n', 'd', 'e', 'f', 'i', 'n', 'e', 'd'] r ['n', 'u', 'l', 'l']
  | call {con : Constructor} {arg t r v : List Char} {place : Nat} (ht : ConstructorCall con arg t)
      (hv : con.render ambient place (trim arg) = .ok v) : Token ambient t r v
  | close {u r : List Char} {c : Char} (hu : Dropped u) (hc : IsCloser c) :
      Token ambient (u ++ [c]) r [c]
  | other {c : Char} {r : List Char} (hq : Scan.isQuote c = false) (hc : ¬ IsCloser c)
      (hw : isWordChar c = false) : Token ambient [c] r [c]

/-- `Forward ambient t s` — token by token, `t` becomes `s`. -/
inductive Forward (ambient : Ambient) : List Char → List Char → Prop
  | nil : Forward ambient [] []
  | cons {t r v s : List Char} (ht : Token ambient t r v) (h : Forward ambient r s) :
      Forward ambient (t ++ r) (v ++ s)

/-! ## From the rewriting -/

/-- If what was written ends with a comma, no bracket takes it back. -/
def CommaStays (out rest : List Char) : Prop :=
  lastSolid? out = some ',' → ∀ c r, trimStart rest = c :: r → ¬ IsCloser c

/-- No comma was written last. -/
theorem CommaStays.of_last {s : List Char} {c : Char} (hb : isBlank c = false) (hc : c ≠ ',')
    (out rest : List Char) : CommaStays ((s ++ [c]).reverse ++ out) rest := by
  intro hlast
  rw [List.reverse_append, List.reverse_singleton, List.append_assoc, List.singleton_append,
    lastSolid?_cons hb] at hlast
  exact absurd (Option.some.inj hlast) hc

/-- A copy ends with its quote. -/
theorem copyString_last (q : Char) (x : List Char) : ∃ s, (copyString q x).1 = s ++ ['"'] := by
  fun_induction copyString q x with
  | case1 => exact ⟨[], rfl⟩
  | case2 c r s rest hc ih =>
    obtain ⟨s', hs⟩ := ih
    rw [hc] at hs
    obtain rfl : s = s' ++ ['"'] := hs
    by_cases hq : c = '\''
    · exact ⟨'\'' :: s', by rw [if_pos hq, List.cons_append]⟩
    · exact ⟨'\\' :: c :: s', by rw [if_neg hq, List.cons_append, List.cons_append]⟩
  | case3 r => exact ⟨[], rfl⟩
  | case4 c r hne hq s rest hc ih =>
    obtain ⟨s', hs⟩ := ih
    rw [hc] at hs
    obtain rfl : s = s' ++ ['"'] := hs
    by_cases hd : c = '"'
    · exact ⟨'\\' :: '"' :: s', by rw [if_pos hd, List.cons_append, List.cons_append]⟩
    · exact ⟨c :: s', by rw [if_neg hd, List.cons_append]⟩

/-- What a copy leaves is the end of the text. -/
theorem copyString_suffix (q : Char) (x : List Char) : (copyString q x).2 <:+ x := by
  fun_induction copyString q x with
  | case1 => exact List.suffix_rfl
  | case2 c r s rest hc ih =>
    rw [hc] at ih
    exact ih.trans ⟨['\\', c], rfl⟩
  | case3 r => exact ⟨[q], rfl⟩
  | case4 c r hne hq s rest hc ih =>
    rw [hc] at ih
    exact ih.trans ⟨[c], rfl⟩

theorem not_isCloser_of_trimStart {w r : List Char} (hw : Blanks w)
    (h : ∀ c s, trimStart (w ++ r) = c :: s → ¬ IsCloser c) :
    ∀ c s, trimStart r = c :: s → ¬ IsCloser c := by
  rwa [trimStart_blanks hw] at h

/-- A turn reads one token, unless it writes a comma that will be taken back. -/
theorem RewritingTurn.token {ambient : Ambient} {out rest out' rest' : List Char}
    (hturn : RewritingTurn ambient out rest out' rest') (hstays : CommaStays out rest)
    (hkept : ∀ r, rest = ',' :: r → ∀ c s, trimStart r = c :: s → ¬ IsCloser c) :
    ∃ t v, rest = t ++ rest' ∧ out' = v.reverse ++ out ∧ Token ambient t rest' v ∧
      CommaStays out' rest' := by
  cases hturn with
  | @string q r hq =>
    obtain ⟨b, hb⟩ := copyString_suffix q r
    obtain ⟨s, hs⟩ := copyString_last q r
    refine ⟨q :: b, '"' :: (copyString q r).1, by rw [List.cons_append, hb], by simp,
      .string hq (by rw [hb]), ?_⟩
    have hlast := CommaStays.of_last (s := s) (c := '"') (by decide) (by decide) ('"' :: out)
      (copyString q r).2
    rwa [← hs] at hlast
  | @close c r hc =>
    have hout : withoutComma out = out := by
      refine withoutComma_of_solid fun hlast => ?_
      have hblank : isBlank c = false := by rcases hc with rfl | rfl <;> decide
      exact hstays hlast c _ (trimStart_of_solid hblank _) hc
    refine ⟨[c], [c], rfl, by rw [hout]; rfl, .close .nothing hc, ?_⟩
    rcases hc with rfl | rfl <;> exact .of_last (s := []) (by decide) (by decide) _ _
  | @key w _ hne hw hkey =>
    rw [isKeyPosition, Bool.and_eq_true, beq_iff_eq] at hkey
    refine ⟨w, '"' :: (w ++ ['"']), rfl, by simp, .key hne hw hkey.2, ?_⟩
    have hlast := CommaStays.of_last (s := '"' :: w) (c := '"') (by decide) (by decide) out rest'
    simpa using hlast
  | @plain w _ hne hw hends hsense =>
    refine ⟨w, w, rfl, rfl, .plain hne hw hends, ?_⟩
    have hlast := hw _ (List.getLast_mem hne)
    rw [← List.dropLast_concat_getLast hne]
    refine .of_last (not_isBlank_of_isWordChar hlast) ?_ _ _
    intro he
    rw [he] at hlast
    exact absurd hlast (by decide)
  | @undefined w _ hne hends hsense =>
    obtain rfl := undefined_of_wordSense hsense
    exact ⟨_, _, rfl, rfl, .undefined hends,
      .of_last (s := ['n', 'u', 'l']) (c := 'l') (by decide) (by decide) _ _⟩
  | @call w rest₀ con behindName v behind hne hw hends hsense hcall =>
    obtain ⟨arg, t, place, hsplit, ht, hv⟩ := exists_constructorCall hends hsense hcall
    obtain ⟨s, c, rfl, hb, hc⟩ := Constructor.exists_last hv
    exact ⟨t, s ++ [c], hsplit, rfl, .call ht hv, .of_last hb hc _ _⟩
  | @other c r hq hb hc hw =>
    refine ⟨[c], [c], rfl, rfl, .other hq (not_or.mpr ⟨hb, hc⟩) hw, ?_⟩
    by_cases hblank : isBlank c = true
    · -- a blank changes neither what was written last nor what comes next
      have hone : Blanks [c] := fun d hd => by rw [List.mem_singleton.mp hd]; exact hblank
      intro hlast
      rw [← List.singleton_append, ← List.reverse_singleton, lastSolid?_blanks hone] at hlast
      exact not_isCloser_of_trimStart hone (hstays hlast)
    · rw [Bool.not_eq_true] at hblank
      intro hlast
      rw [lastSolid?_cons hblank] at hlast
      obtain rfl := Option.some.inj hlast
      exact hkept _ rfl

/-- **What a text is rewritten to, it becomes token by token.** -/
theorem forward_of_rewritten {ambient : Ambient} : ∀ (n : Nat) (rest out z : List Char),
    rest.length ≤ n → CommaStays out rest → rewritten ambient out rest = .ok z →
      ∃ s, z = out.reverse ++ s ∧ Forward ambient rest s := by
  intro n
  induction n with
  | zero =>
    intro rest out z hn _ h
    obtain rfl : rest = [] := List.length_eq_zero_iff.mp (Nat.le_zero.mp hn)
    cases h
    exact ⟨[], (List.append_nil _).symm, .nil⟩
  | succ n ih =>
    intro rest out z hn hstays h
    by_cases hne : rest = []
    · subst hne
      exact ih [] out z (Nat.zero_le n) hstays h
    by_cases htaken : ∃ w c r, rest = ',' :: (w ++ c :: r) ∧ Blanks w ∧ IsCloser c
    · obtain ⟨w, c, r, rfl, hw, hc⟩ := htaken
      rw [rewritten_mark ambient out (Or.inl rfl), rewritten_blanks ambient hw,
        rewritten_close ambient _ hc, withoutComma_of_comma hw] at h
      have hstays' : CommaStays (c :: out) r := by
        rcases hc with rfl | rfl <;> exact .of_last (s := []) (by decide) (by decide) _ _
      have hlen : r.length ≤ n := by
        simp only [List.length_cons, List.length_append] at hn
        omega
      obtain ⟨s, rfl, hs⟩ := ih r (c :: out) z hlen hstays' h
      refine ⟨[c] ++ s, by simp, ?_⟩
      have htoken : Token ambient ((',' :: w) ++ [c]) r [c] := .close (.comma hw) hc
      have hforward := Forward.cons htoken hs
      simpa using hforward
    · obtain ⟨out', rest', hturn, hrest⟩ := exists_turn hne h
      have hlt := hturn.length_lt
      have hkept : ∀ r, rest = ',' :: r → ∀ c s, trimStart r = c :: s → ¬ IsCloser c := by
        rintro r rfl c s hnext hc
        refine htaken ⟨r.takeWhile isBlank, c, s, ?_, fun d hd => List.mem_takeWhile_imp hd, hc⟩
        rw [← hnext, trimStart, List.takeWhile_append_dropWhile]
      obtain ⟨t, v, rfl, rfl, htoken, hstays'⟩ := hturn.token hstays hkept
      obtain ⟨s, rfl, hs⟩ := ih rest' _ z (by omega) hstays' hrest
      exact ⟨v ++ s, by simp, .cons htoken hs⟩

/-! ## Reading it off -/

namespace Token

variable {ambient : Ambient} {t r v : List Char}

theorem ne_nil (h : Token ambient t r v) : t ≠ [] := by
  cases h with
  | string => exact List.cons_ne_nil _ _
  | key hne => exact hne
  | plain hne => exact hne
  | undefined => decide
  | call ht =>
    obtain ⟨c, r, hcons, -⟩ := ht.first
    rw [hcons]
    exact List.cons_ne_nil c r
  | close => exact List.append_ne_nil_of_right_ne_nil _ (List.cons_ne_nil _ _)
  | other => exact List.cons_ne_nil _ _

theorem made_ne_nil (h : Token ambient t r v) : v ≠ [] := by
  cases h with
  | string => exact List.cons_ne_nil _ _
  | key => exact List.cons_ne_nil _ _
  | plain hne => exact hne
  | undefined => decide
  | call ht hv =>
    obtain ⟨s, c, rfl, -⟩ := Constructor.exists_last hv
    exact List.append_ne_nil_of_right_ne_nil _ (List.cons_ne_nil _ _)
  | close => exact List.cons_ne_nil _ _
  | other => exact List.cons_ne_nil _ _

end Token

theorem isWordChar_of_isDigit {c : Char} (h : Decimal.isDigit c = true) : isWordChar c = true :=
  isWordChar_of_isNumeralChar (Json.isNumeralChar_of_isDigit h)
    (by rintro rfl; exact absurd h (by decide)) (by rintro rfl; exact absurd h (by decide))

namespace Constructor

/-- What a call becomes begins with a brace, a sign or a digit. -/
theorem first_made {con : Constructor} {ambient : Ambient} {place : Nat} {arg v : List Char}
    {c : Char} (hv : con.render ambient place arg = .ok (c :: v)) :
    (con.IsNumber ∧ (c = '-' ∨ Decimal.isDigit c = true)) ∨ (¬ con.IsNumber ∧ c = '\x7b') := by
  by_cases h : con.IsNumber
  · obtain ⟨-, d, r, hcons, hd⟩ := h.numeralLike hv
    obtain ⟨rfl, -⟩ := List.cons.inj hcons
    exact Or.inl ⟨h, hd⟩
  · obtain ⟨r, hcons⟩ := render_brace h hv
    exact Or.inr ⟨h, (List.cons.inj hcons).1⟩

/-- If it is no character of words, it is a sign or a brace. -/
theorem first_made_of_not_word {con : Constructor} {ambient : Ambient} {place : Nat}
    {arg v : List Char} {c : Char} (hword : isWordChar c = false)
    (hv : con.render ambient place arg = .ok (c :: v)) : c = '-' ∨ c = '\x7b' := by
  rcases first_made hv with ⟨-, hc | hd⟩ | ⟨-, hc⟩
  · exact Or.inl hc
  · rw [isWordChar_of_isDigit hd] at hword
    cases hword
  · exact Or.inr hc

end Constructor

/-- Where a word ends, none begins. -/
theorem EndsWord.not_word {w r : List Char} (h : EndsWord (w ++ r)) (hne : w ≠ [])
    (hw : ∀ c ∈ w, isWordChar c = true) : False := by
  obtain ⟨c, w, rfl⟩ := List.exists_cons_of_ne_nil hne
  have hc := h c _ rfl
  rw [hw c List.mem_cons_self] at hc
  cases hc

/-- A character that only stands for itself. -/
def IsMark (c : Char) : Prop := isWordChar c = false ∧ c ∉ ['"', '-', '\x7b', '\x7d', ']']

theorem IsMark.of_isSpace {c : Char} (h : isSpace c = true) : IsMark c := by
  simp only [isSpace, Bool.or_eq_true, decide_eq_true_eq] at h
  rcases h with ((rfl | rfl) | rfl) | rfl <;> unfold IsMark <;> decide

namespace Forward

variable {ambient : Ambient} {rest s : List Char} {c : Char}

/-- There is no text without tokens. -/
theorem eq_nil (h : Forward ambient [] s) : s = [] := by
  generalize hrest : ([] : List Char) = rest at h
  cases h with
  | nil => rfl
  | cons ht => exact absurd (List.append_eq_nil_iff.mp hrest.symm).1 ht.ne_nil

/-- No text becomes nothing. -/
theorem nil_of_nil (h : Forward ambient rest []) : rest = [] := by
  generalize hs : ([] : List Char) = s at h
  cases h with
  | nil => rfl
  | cons ht => exact absurd (List.append_eq_nil_iff.mp hs.symm).1 ht.made_ne_nil

/-- The token that the first character comes from. -/
theorem exists_token (h : Forward ambient rest (c :: s)) :
    ∃ t r v s', rest = t ++ r ∧ s = v ++ s' ∧ Token ambient t r (c :: v) ∧
      Forward ambient r s' := by
  generalize hs : c :: s = z at h
  cases h with
  | nil => cases hs
  | @cons t r v s' ht h =>
    obtain ⟨d, v, rfl⟩ := List.exists_cons_of_ne_nil ht.made_ne_nil
    obtain ⟨rfl, rfl⟩ := List.cons.inj hs
    exact ⟨t, r, v, s', rfl, rfl, ht, h⟩

theorem mark (hc : IsMark c) (h : Forward ambient rest (c :: s)) :
    ∃ r, rest = c :: r ∧ Forward ambient r s := by
  obtain ⟨hword, hno⟩ := hc
  simp only [List.mem_cons, List.not_mem_nil, or_false, not_or] at hno
  obtain ⟨t, r, v, s', rfl, rfl, ht, hnext⟩ := h.exists_token
  cases ht with
  | string => exact absurd rfl hno.1
  | key => exact absurd rfl hno.1
  | plain hne hw =>
    rw [hw c List.mem_cons_self] at hword
    cases hword
  | undefined => exact absurd hword (by decide)
  | call ht hv =>
    rcases Constructor.first_made_of_not_word hword hv with rfl | rfl
    · exact absurd rfl hno.2.1
    · exact absurd rfl hno.2.2.1
  | close hu hc =>
    rcases hc with rfl | rfl
    · exact absurd rfl hno.2.2.2.1
    · exact absurd rfl hno.2.2.2.2
  | other => exact ⟨r, rfl, hnext⟩

theorem spaces {w : List Char} (hw : Spaces w) (h : Forward ambient rest (w ++ s)) :
    ∃ r, rest = w ++ r ∧ Forward ambient r s := by
  induction w generalizing rest with
  | nil => exact ⟨rest, rfl, h⟩
  | cons c w ih =>
    obtain ⟨r, rfl, hnext⟩ := h.mark (.of_isSpace (hw c List.mem_cons_self))
    obtain ⟨r', rfl, hs⟩ := ih (fun d hd => hw d (List.mem_cons_of_mem c hd)) hnext
    exact ⟨r', rfl, hs⟩

/-- In front of a bracket that closes, a comma may have been dropped. -/
theorem closer (hc : IsCloser c) (h : Forward ambient rest (c :: s)) :
    ∃ u r, Dropped u ∧ rest = u ++ c :: r ∧ Forward ambient r s := by
  have hword : isWordChar c = false := by rcases hc with rfl | rfl <;> decide
  obtain ⟨t, r, v, s', rfl, rfl, ht, hnext⟩ := h.exists_token
  cases ht with
  | string => rcases hc with hc | hc <;> exact absurd hc (by decide)
  | key => rcases hc with hc | hc <;> exact absurd hc (by decide)
  | plain hne hw =>
    rw [hw c List.mem_cons_self] at hword
    cases hword
  | undefined => exact absurd hword (by decide)
  | call ht hv =>
    rcases Constructor.first_made_of_not_word hword hv with rfl | rfl <;>
      rcases hc with hc | hc <;> exact absurd hc (by decide)
  | @close u _ _ hu => exact ⟨u, r, hu, by rw [List.append_assoc]; rfl, hnext⟩
  | other hq hno => exact absurd hc hno

/-- A double quote begins a copied string, or a key. -/
theorem quote (h : Forward ambient rest ('"' :: s)) :
    (∃ q b r v s', Scan.isQuote q = true ∧ rest = q :: (b ++ r) ∧ copyString q (b ++ r) = (v, r) ∧
      s = v ++ s' ∧ Forward ambient r s') ∨
    ∃ w r s', w ≠ [] ∧ (∀ c ∈ w, isWordChar c = true) ∧ rest = w ++ r ∧ s = w ++ '"' :: s' ∧
      (trimStart r).head? = some ':' ∧ Forward ambient r s' := by
  obtain ⟨t, r, v, s', rfl, rfl, ht, hnext⟩ := h.exists_token
  cases ht with
  | @string q b _ _ hq hcopy => exact Or.inl ⟨q, b, r, v, s', hq, rfl, hcopy, rfl, hnext⟩
  | key hne hw hr =>
    exact Or.inr ⟨t, r, s', hne, hw, rfl, by rw [List.append_assoc]; rfl, hr, hnext⟩
  | plain hne hw => exact absurd (hw '"' List.mem_cons_self) (by decide)
  | call ht hv =>
    rcases Constructor.first_made_of_not_word (by decide) hv with hc | hc <;>
      exact absurd hc (by decide)
  | close hu hc => rcases hc with hc | hc <;> exact absurd hc (by decide)
  | other hq => exact absurd hq (by decide)

/-- A brace stands for itself, or begins what a call becomes. -/
theorem brace (h : Forward ambient rest ('\x7b' :: s)) :
    (∃ r, rest = '\x7b' :: r ∧ Forward ambient r s) ∨
    ∃ con arg t r v s' place, ¬ Constructor.IsNumber con ∧ ConstructorCall con arg t ∧
      con.render ambient place (trim arg) = .ok ('\x7b' :: v) ∧ rest = t ++ r ∧ s = v ++ s' ∧
      Forward ambient r s' := by
  obtain ⟨t, r, v, s', rfl, rfl, ht, hnext⟩ := h.exists_token
  cases ht with
  | plain hne hw => exact absurd (hw '\x7b' List.mem_cons_self) (by decide)
  | @call con arg _ _ _ place ht hv =>
    rcases Constructor.first_made hv with ⟨-, hc | hc⟩ | ⟨hcon, -⟩
    · exact absurd hc (by decide)
    · exact absurd hc (by decide)
    · exact Or.inr ⟨con, arg, t, r, v, s', place, hcon, ht, hv, rfl, rfl, hnext⟩
  | close hu hc => rcases hc with hc | hc <;> exact absurd hc (by decide)
  | other => exact Or.inl ⟨r, rfl, hnext⟩

/-- A letter begins a word that stands for itself, or the word for the absent value. -/
theorem letter (hword : isWordChar c = true) (hd : Decimal.isDigit c = false)
    (h : Forward ambient rest (c :: s)) :
    ∃ t w r s', rest = t ++ r ∧ c :: s = w ++ s' ∧ (∀ d ∈ w, isWordChar d = true) ∧ EndsWord r ∧
      Forward ambient r s' ∧
      (t = w ∨ (t = ['u', 'n', 'd', 'e', 'f', 'i', 'n', 'e', 'd'] ∧ w = ['n', 'u', 'l', 'l'])) := by
  obtain ⟨t, r, v, s', rfl, rfl, ht, hnext⟩ := h.exists_token
  cases ht with
  | string => exact absurd hword (by decide)
  | key => exact absurd hword (by decide)
  | plain hne hw hr => exact ⟨c :: v, c :: v, r, s', rfl, rfl, hw, hr, hnext, Or.inl rfl⟩
  | undefined hr =>
    exact ⟨_, _, r, s', rfl, rfl, List.all_eq_true.mp (by decide), hr, hnext,
      Or.inr ⟨rfl, rfl⟩⟩
  | call ht hv =>
    rcases Constructor.first_made hv with ⟨-, rfl | hc⟩ | ⟨-, rfl⟩
    · exact absurd hword (by decide)
    · rw [hd] at hc
      cases hc
    · exact absurd hword (by decide)
  | close hu hc => rcases hc with rfl | rfl <;> exact absurd hword (by decide)
  | other hq hc hw =>
    rw [hw] at hword
    cases hword

/-- A character of numbers begins a word, or what the call of a number becomes, or it is a sign. -/
theorem numeral (hc : isNumeralChar c = true) (h : Forward ambient rest (c :: s)) :
    (∃ w r s', rest = w ++ r ∧ c :: s = w ++ s' ∧ w ≠ [] ∧ (∀ d ∈ w, isWordChar d = true) ∧
      Forward ambient r s') ∨
    (∃ con arg t r v s', Constructor.IsNumber con ∧ ConstructorCall con arg t ∧ NumeralLike v ∧
      rest = t ++ r ∧ c :: s = v ++ s' ∧ Forward ambient r s') ∨
    ∃ r, rest = c :: r ∧ Forward ambient r s := by
  obtain ⟨t, r, v, s', rfl, rfl, ht, hnext⟩ := h.exists_token
  cases ht with
  | string => exact absurd hc (by decide)
  | key => exact absurd hc (by decide)
  | plain hne hw => exact Or.inl ⟨c :: v, r, s', rfl, rfl, hne, hw, hnext⟩
  | undefined => exact absurd hc (by decide)
  | @call con arg _ _ _ place ht hv =>
    rcases Constructor.first_made hv with ⟨hcon, -⟩ | ⟨-, rfl⟩
    · exact Or.inr (Or.inl
        ⟨con, arg, t, r, c :: v, s', hcon, ht, hcon.numeralLike hv, rfl, rfl, hnext⟩)
    · exact absurd hc (by decide)
  | close hu hcloser => rcases hcloser with rfl | rfl <;> exact absurd hc (by decide)
  | other => exact Or.inr (Or.inr ⟨r, rfl, hnext⟩)

/-! ### What follows -/

/-- What stands for itself does so wherever it stands, a comma apart. -/
theorem of_other {r : List Char} (hq : Scan.isQuote c = false) (hc : ¬ IsCloser c)
    (hw : isWordChar c = false) (hcomma : c ≠ ',') (h : Forward ambient (c :: r) s) :
    ∃ s', s = c :: s' ∧ Forward ambient r s' := by
  have hends : EndsWord (c :: r) := fun d _ hd => (List.cons.inj hd).1 ▸ hw
  generalize hrest : c :: r = rest at h hends
  cases h with
  | nil => cases hrest
  | @cons t r' v s' ht h =>
    cases ht with
    | string hquote =>
      obtain ⟨rfl, -⟩ := List.cons.inj hrest
      rw [hquote] at hq
      cases hq
    | key hne hword => exact (hends.not_word hne hword).elim
    | plain hne hword => exact (hends.not_word hne hword).elim
    | undefined => exact (hends.not_word (by decide) (List.all_eq_true.mp (by decide))).elim
    | call ht =>
      obtain ⟨w, r₀, _, hsplit, hne, hword, -⟩ := ht.exists_word r'
      rw [hsplit] at hends
      exact (hends.not_word hne hword).elim
    | close hu hcloser =>
      cases hu with
      | nothing =>
        obtain ⟨rfl, -⟩ := List.cons.inj hrest
        exact absurd hcloser hc
      | comma =>
        obtain ⟨rfl, -⟩ := List.cons.inj hrest
        exact absurd rfl hcomma
    | other =>
      obtain ⟨rfl, rfl⟩ := List.cons.inj hrest
      exact ⟨s', rfl, h⟩

/-- A colon that comes next does so afterwards. -/
theorem colon (h : Forward ambient rest s) (hr : (trimStart rest).head? = some ':') :
    (trimStart s).head? = some ':' := by
  induction rest generalizing s with
  | nil => cases hr
  | cons c rest ih =>
    by_cases hb : isBlank c = true
    · obtain ⟨hq, hbrace, hbracket, hw⟩ := isBlank_other hb
      obtain ⟨s', rfl, hnext⟩ := h.of_other hq (not_or.mpr ⟨hbrace, hbracket⟩) hw
        (ne_of_isBlank hb (by decide))
      rw [trimStart, List.dropWhile_cons, if_pos hb] at hr ⊢
      exact ih hnext hr
    · rw [Bool.not_eq_true] at hb
      rw [trimStart_of_solid hb] at hr
      obtain rfl := Option.some.inj hr
      obtain ⟨s', rfl, -⟩ := h.of_other (by decide) (by unfold IsCloser; decide) (by decide)
        (by decide)
      rfl

/-- A word that ends here does so afterwards. -/
theorem endsWord (h : Forward ambient rest s) (hr : EndsWord rest) : EndsWord s := by
  rintro c s₁ rfl
  obtain ⟨t, r, v, s', rfl, rfl, ht, hnext⟩ := h.exists_token
  cases ht with
  | string => rfl
  | key hne hw => exact (hr.not_word hne hw).elim
  | plain hne hw => exact (hr.not_word hne hw).elim
  | undefined => exact (hr.not_word (by decide) (List.all_eq_true.mp (by decide))).elim
  | call ht =>
    obtain ⟨w, r₀, _, hsplit, hne, hw, -⟩ := ht.exists_word r
    rw [hsplit] at hr
    exact (hr.not_word hne hw).elim
  | close hu hc => rcases hc with rfl | rfl <;> rfl
  | other hq hc hw => exact hw

end Forward

end Polyshell.Mongo
