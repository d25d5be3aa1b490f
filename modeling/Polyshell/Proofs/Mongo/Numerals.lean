/-
  Literals whose strict form is a number.

  1. **Turns** — `RewritingTurn out rest out' rest'` lists what one turn of the rewriting can do.  A
     rewriting that succeeds takes a turn as long as there is text (`exists_turn`), so an induction
     over the text goes through that list.

  2. **The first character** — what was written first stays first (`first_stays`): only a comma is ever
     taken back, with the blanks behind it.

  3. **Numbers** — a text that is rewritten to the characters of numbers and blanks of JSON alone, such
     as `NumberInt(5)`, is rewritten to the same between brackets (`inside_of_numeral`).
-/
import Polyshell.Proofs.Mongo.Relaxed

namespace Polyshell.Mongo

open Polyshell.Text
open Polyshell.Json (Spaces isSpace isNumeralChar)

/-! ## Turns -/

/-- One turn of the rewriting: what was written and what is left, before and behind it. -/
inductive RewritingTurn (ambient : Ambient) (out : List Char) :
    List Char → List Char → List Char → Prop
  | string {q r} (hq : Scan.isQuote q = true) :
      RewritingTurn ambient out (q :: r) ((copyString q r).1.reverse ++ '"' :: out) (copyString q r).2
  | close {c r} (hc : c = '\x7d' ∨ c = ']') :
      RewritingTurn ambient out (c :: r) (c :: withoutComma out) r
  | key {w rest} (hne : w ≠ []) (hw : ∀ c ∈ w, isWordChar c = true)
      (hkey : isKeyPosition out rest = true) :
      RewritingTurn ambient out (w ++ rest) ('"' :: (w.reverse ++ '"' :: out)) rest
  | plain {w rest} (hne : w ≠ []) (hw : ∀ c ∈ w, isWordChar c = true) (hrest : EndsWord rest)
      (hs : wordSense w rest = .plain) :
      RewritingTurn ambient out (w ++ rest) (w.reverse ++ out) rest
  | undefined {w rest} (hne : w ≠ []) (hrest : EndsWord rest)
      (hs : wordSense w rest = .undefined) :
      RewritingTurn ambient out (w ++ rest) ("null".toList.reverse ++ out) rest
  | call {w rest con behindName v behind} (hne : w ≠ []) (hw : ∀ c ∈ w, isWordChar c = true)
      (hrest : EndsWord rest) (hs : wordSense w rest = .call con behindName)
      (hc : callText ambient con behindName = .ok (v, behind)) :
      RewritingTurn ambient out (w ++ rest) (v.reverse ++ out) behind
  | other {c r} (hq : Scan.isQuote c = false) (hb : c ≠ '\x7d') (hc : c ≠ ']')
      (hw : isWordChar c = false) : RewritingTurn ambient out (c :: r) (c :: out) r

/-- Every turn reads something. -/
theorem RewritingTurn.length_lt {ambient : Ambient} {out rest out' rest' : List Char}
    (h : RewritingTurn ambient out rest out' rest') : rest'.length < rest.length := by
  have hword : ∀ {w rest : List Char}, w ≠ [] → rest.length < (w ++ rest).length := by
    intro w rest hne
    have hpos := List.length_pos_iff.mpr hne
    rw [List.length_append]
    omega
  cases h with
  | @string q r hq => exact Nat.lt_succ_of_le (length_copyString_le q r)
  | close hc => exact Nat.lt_succ_self _
  | key hne => exact hword hne
  | plain hne => exact hword hne
  | undefined hne => exact hword hne
  | call hne hw hrest hs hc =>
    exact Nat.lt_of_le_of_lt (Nat.le_trans (length_callText_le hc) (length_wordSense_le hs))
      (hword hne)
  | other => exact Nat.lt_succ_self _

/-- A call stands for what its constructor renders. -/
theorem rewritten_call (ambient : Ambient) (out : List Char) {w rest behindName v behind : List Char}
    {con : Constructor} (hne : w ≠ []) (hw : ∀ c ∈ w, isWordChar c = true) (hrest : EndsWord rest)
    (hkey : isKeyPosition out rest = false) (hs : wordSense w rest = .call con behindName)
    (hc : callText ambient con behindName = .ok (v, behind)) :
    rewritten ambient out (w ++ rest) = rewritten ambient (v.reverse ++ out) behind := by
  obtain ⟨fuel, hf, heq⟩ := rewritten_word ambient out hne hw hrest
  have hbehind := Nat.le_trans (length_callText_le hc) (length_wordSense_le hs)
  rw [heq, hkey, if_neg Bool.false_ne_true, hs]
  simp only [hc]
  exact strictFrom_congr ambient _ _ _ _ (Nat.le_trans hbehind hf) (Nat.le_refl _)

/-- A rewriting that succeeds has rendered the call that its text begins with. -/
theorem exists_callText {ambient : Ambient} {out w rest behindName z : List Char}
    {con : Constructor} (hne : w ≠ []) (hw : ∀ c ∈ w, isWordChar c = true) (hrest : EndsWord rest)
    (hkey : isKeyPosition out rest = false) (hs : wordSense w rest = .call con behindName)
    (h : rewritten ambient out (w ++ rest) = .ok z) :
    ∃ v behind, callText ambient con behindName = .ok (v, behind) ∧
      rewritten ambient (v.reverse ++ out) behind = .ok z := by
  cases hc : callText ambient con behindName with
  | error e =>
    obtain ⟨fuel, -, heq⟩ := rewritten_word ambient out hne hw hrest
    rw [heq, hkey, if_neg Bool.false_ne_true, hs] at h
    simp only [hc] at h
    cases h
  | ok y =>
    obtain ⟨v, behind⟩ := y
    exact ⟨v, behind, rfl, by rw [← h, rewritten_call ambient out hne hw hrest hkey hs hc]⟩

/-- A rewriting that succeeds takes a turn as long as there is text. -/
theorem exists_turn {ambient : Ambient} {out rest z : List Char} (hne : rest ≠ [])
    (h : rewritten ambient out rest = .ok z) :
    ∃ out' rest', RewritingTurn ambient out rest out' rest' ∧ rewritten ambient out' rest' = .ok z := by
  obtain ⟨c, r, rfl⟩ := List.exists_cons_of_ne_nil hne
  by_cases hq : Scan.isQuote c = true
  · exact ⟨_, _, .string hq, by rw [← h, rewritten_string ambient out hq]⟩
  rw [Bool.not_eq_true] at hq
  by_cases hclose : c = '\x7d' ∨ c = ']'
  · exact ⟨_, _, .close hclose, by rw [← h, rewritten_close ambient out hclose]⟩
  obtain ⟨hb, hc⟩ := not_or.mp hclose
  by_cases hw : isWordChar c = true
  · -- the word at the front, up to what ends it
    have hsplit : c :: r = (c :: r).takeWhile isWordChar ++ (c :: r).dropWhile isWordChar :=
      List.takeWhile_append_dropWhile.symm
    have hword : ∀ d ∈ (c :: r).takeWhile isWordChar, isWordChar d = true := fun d hd =>
      List.mem_takeWhile_imp hd
    have hwne : (c :: r).takeWhile isWordChar ≠ [] := by
      rw [List.takeWhile_cons, if_pos hw]
      exact List.cons_ne_nil _ _
    have hends : EndsWord ((c :: r).dropWhile isWordChar) := by
      intro d s hd
      have hhead := List.head?_dropWhile_not isWordChar (c :: r)
      rw [hd, List.head?_cons] at hhead
      exact hhead
    generalize (c :: r).takeWhile isWordChar = w, (c :: r).dropWhile isWordChar = rest
      at hsplit hword hwne hends
    rw [hsplit] at h ⊢
    cases hkey : isKeyPosition out rest with
    | true =>
      exact ⟨_, _, .key hwne hword hkey, by
        rw [← h, rewritten_key ambient out hwne hword hends hkey]⟩
    | false =>
      cases hs : wordSense w rest with
      | plain =>
        exact ⟨_, _, .plain hwne hword hends hs, by
          rw [← h, rewritten_plain ambient out hwne hword hends hkey hs]⟩
      | undefined =>
        exact ⟨_, _, .undefined hwne hends hs, by
          rw [← h, rewritten_undefined ambient out hwne hword hends hkey hs]⟩
      | badNew =>
        obtain ⟨fuel, -, heq⟩ := rewritten_word ambient out hwne hword hends
        rw [heq, hkey, if_neg Bool.false_ne_true, hs] at h
        cases h
      | call con behindName =>
        obtain ⟨v, behind, hc, hz⟩ := exists_callText hwne hword hends hkey hs h
        exact ⟨_, _, .call hwne hword hends hs hc, hz⟩
  · rw [Bool.not_eq_true] at hw
    exact ⟨_, _, .other hq hb hc hw, by rw [← h, rewritten_other ambient out hq hb hc hw]⟩

/-! ## The first character -/

theorem withoutComma_first {c : Char} (hc : c ≠ ',') (new : List Char) :
    ∃ new', withoutComma (new ++ [c]) = new' ++ [c] := by
  unfold withoutComma
  split
  · next r heq =>
    obtain ⟨x, hx⟩ : ',' :: r <:+ new ++ [c] := heq ▸ List.dropWhile_suffix _
    rcases List.eq_nil_or_concat r with rfl | ⟨r', d, rfl⟩
    · exact absurd (List.cons.inj (List.append_inj_right' hx rfl)).1.symm hc
    · rw [List.concat_eq_append, ← List.cons_append, ← List.append_assoc] at hx
      obtain ⟨rfl, -⟩ := List.cons.inj (List.append_inj_right' hx rfl)
      exact ⟨r', List.concat_eq_append⟩
  · exact ⟨new, rfl⟩

/-- What was written first stays first. -/
theorem first_stays {ambient : Ambient} {c : Char} (hc : c ≠ ',') :
    ∀ (n : Nat) (rest new z : List Char), rest.length ≤ n →
      rewritten ambient (new ++ [c]) rest = .ok z → ∃ z', z = c :: z' := by
  intro n
  induction n with
  | zero =>
    intro rest new z hn h
    obtain rfl : rest = [] := List.length_eq_zero_iff.mp (Nat.le_zero.mp hn)
    cases h
    exact ⟨new.reverse, by rw [List.reverse_append]; rfl⟩
  | succ n ih =>
    intro rest new z hn h
    by_cases hne : rest = []
    · subst hne
      exact ih [] new z (Nat.zero_le n) h
    · obtain ⟨out', rest', hturn, hrest⟩ := exists_turn hne h
      have hlt := hturn.length_lt
      have hkept : ∃ new', out' = new' ++ [c] := by
        cases hturn with
        | string hq => exact ⟨_ ++ '"' :: new, by rw [List.append_assoc]; rfl⟩
        | @close d r hd =>
          obtain ⟨new', heq⟩ := withoutComma_first hc new
          exact ⟨d :: new', by rw [heq]; rfl⟩
        | @key w => exact ⟨'"' :: (w.reverse ++ '"' :: new), by simp⟩
        | @plain w => exact ⟨w.reverse ++ new, by rw [List.append_assoc]⟩
        | undefined => exact ⟨_ ++ new, by rw [List.append_assoc]⟩
        | @call w r con behindName v => exact ⟨v.reverse ++ new, by rw [List.append_assoc]⟩
        | @other d r => exact ⟨d :: new, rfl⟩
      obtain ⟨new', rfl⟩ := hkept
      exact ih rest' new' z (by omega) hrest

/-! ## Calls that write numbers -/

/-- The constructors of numbers. -/
def Constructor.IsNumber (con : Constructor) : Prop := con = .numberInt ∨ con = .numberLong

theorem cut_append_of_some {d : Char} {s b : List Char} (h : (cut d s).2 = some b) (r : List Char) :
    cut d (s ++ r) = ((cut d s).1, some (b ++ r)) := by
  induction s with
  | nil => cases h
  | cons c s ih =>
    rw [cut] at h
    rw [List.cons_append, cut, cut]
    by_cases hc : c = d
    · rw [if_pos hc] at h
      rw [if_pos hc, if_pos hc]
      cases h
      rfl
    · rw [if_neg hc] at h
      rw [if_neg hc, if_neg hc, ih h]

/-- A number is rendered alike wherever its call stands. -/
theorem Constructor.IsNumber.render_eq {con : Constructor} (h : con.IsNumber)
    (ambient ambient' : Ambient) (place place' : Nat) (arg : List Char) :
    con.render ambient place arg = con.render ambient' place' arg := by
  rcases h with rfl | rfl <;> rfl

/-- What is no number is rendered as an object. -/
theorem Constructor.render_brace {con : Constructor} (h : ¬ con.IsNumber) {ambient : Ambient}
    {place : Nat} {arg v : List Char} (hv : con.render ambient place arg = .ok v) :
    ∃ r, v = '\x7b' :: r := by
  cases con with
  | objectId =>
    simp only [Constructor.render] at hv
    split at hv
    · cases hv
      exact ⟨_, rfl⟩
    · split at hv
      · cases hv
        exact ⟨_, rfl⟩
      · cases hv
  | numberInt => exact absurd (Or.inl rfl) h
  | numberLong => exact absurd (Or.inr rfl) h
  | _ =>
    simp only [Constructor.render] at hv
    split at hv
    · cases hv
      exact ⟨_, rfl⟩
    · split at hv
      · cases hv
        exact ⟨_, rfl⟩
      · split at hv
        · cases hv
          exact ⟨_, rfl⟩
        · cases hv

/-- What is a number is rendered as its text. -/
theorem Constructor.IsNumber.render_text {con : Constructor} (h : con.IsNumber) {ambient : Ambient}
    {place : Nat} {arg v : List Char} (hv : con.render ambient place arg = .ok v) :
    ∃ s n, number? s = some n ∧ v = n.text := by
  rcases h with rfl | rfl
  all_goals
    simp only [Constructor.render] at hv
    split at hv
    · next n hn =>
      cases hv
      exact ⟨_, n, hn, rfl⟩
    · cases hv

/-- What a call stands for was rendered. -/
theorem exists_render {ambient : Ambient} {con : Constructor} {rest v behind : List Char}
    (hc : callText ambient con rest = .ok (v, behind)) :
    ∃ place arg, con.render ambient place arg = .ok v := by
  unfold callText at hc
  split at hc
  · split at hc
    · cases hc
    · next inner b hcut =>
      cases hrender : con.render ambient b.length (trim inner) with
      | error e => rw [hrender] at hc; cases hc
      | ok x =>
        rw [hrender] at hc
        cases hc
        exact ⟨_, _, hrender⟩
  · cases hc

/-- The call of a number, with more text behind it. -/
theorem Constructor.IsNumber.callText_append {con : Constructor} (h : con.IsNumber)
    {ambient : Ambient} {rest v behind : List Char}
    (hc : callText ambient con rest = .ok (v, behind)) (ambient' : Ambient) (r : List Char) :
    callText ambient' con (rest ++ r) = .ok (v, behind ++ r) := by
  unfold callText at hc
  split at hc
  · next s heq =>
    have htrim : trimStart (rest ++ r) = '(' :: (s ++ r) := by
      rw [trimStart] at heq
      rw [trimStart, List.dropWhile_append, if_neg (by rw [heq]; exact Bool.false_ne_true), heq]
      rfl
    split at hc
    · cases hc
    · next inner b hcut =>
      have happend := cut_append_of_some (d := ')') (s := s) (b := b) (by rw [hcut]) r
      rw [hcut] at happend
      rw [h.render_eq ambient ambient' b.length (b ++ r).length] at hc
      unfold callText
      rw [htrim]
      simp only [happend]
      cases hrender : con.render ambient' (b ++ r).length (trim inner) with
      | error e => rw [hrender] at hc; cases hc
      | ok x =>
        rw [hrender] at hc
        cases hc
        rfl
  · cases hc

/-- `new` makes no numbers. -/
theorem not_isNumber_of_ofNewName? {word : List Char} {con : Constructor}
    (h : Constructor.ofNewName? word = some con) : ¬ con.IsNumber := by
  unfold Constructor.ofNewName? at h
  split at h
  · cases h
    rintro (h | h) <;> cases h
  · cases h
    rintro (h | h) <;> cases h
  · cases h

/-- The name of the constructor of a number stands for its call, whatever follows. -/
theorem wordSense_number {con : Constructor} (h : con.IsNumber) {w rest behindName : List Char}
    (hs : wordSense w rest = .call con behindName) :
    behindName = rest ∧ ∀ rest', wordSense w rest' = .call con rest' := by
  by_cases hnew : w = "new".toList
  · rw [wordSense, if_pos hnew] at hs
    cases hname : Constructor.ofNewName? ((trimStart rest).takeWhile isNameChar) with
    | none => simp only [hname] at hs; cases hs
    | some c =>
      simp only [hname] at hs
      cases hs
      exact absurd h (not_isNumber_of_ofNewName? hname)
  · by_cases hu : w = "undefined".toList
    · rw [wordSense, if_neg hnew, if_pos hu] at hs
      cases hs
    · rw [wordSense, if_neg hnew, if_neg hu] at hs
      cases hname : Constructor.ofName? w with
      | none => rw [hname] at hs; cases hs
      | some c =>
        rw [hname] at hs
        cases hs
        exact ⟨rfl, fun rest' => by rw [wordSense, if_neg hnew, if_neg hu, hname]⟩

/-- A word that stands for itself does so whatever follows. -/
theorem wordSense_plain_congr {w rest : List Char} (hs : wordSense w rest = .plain)
    (rest' : List Char) : wordSense w rest' = .plain := by
  by_cases hnew : w = "new".toList
  · rw [wordSense, if_pos hnew] at hs
    cases hname : Constructor.ofNewName? ((trimStart rest).takeWhile isNameChar) with
    | none => simp only [hname] at hs; cases hs
    | some c => simp only [hname] at hs; cases hs
  · by_cases hu : w = "undefined".toList
    · rw [wordSense, if_neg hnew, if_pos hu] at hs
      cases hs
    · rw [wordSense, if_neg hnew, if_neg hu] at hs
      rw [wordSense, if_neg hnew, if_neg hu]
      cases hname : Constructor.ofName? w with
      | none => rfl
      | some c => rw [hname] at hs; cases hs

/-! ## Numbers between brackets -/

/-- `Inside t s` — where no key can stand, and in front of what ends a word, the rewriting turns `t`
    into `s`. -/
def Inside (t s : List Char) : Prop := ∀ ambient out rest, ¬ OpensKey out → EndsWord rest →
  rewritten ambient out (t ++ rest) = rewritten ambient (s.reverse ++ out) rest

/-- Characters of numbers, and blanks of JSON. -/
def NumeralOrSpaces (s : List Char) : Prop := ∀ c ∈ s, isNumeralChar c = true ∨ isSpace c = true

theorem not_isKeyPosition {out : List Char} (h : ¬ OpensKey out) (rest : List Char) :
    isKeyPosition out rest = false := by
  rw [OpensKey, not_or] at h
  simp [isKeyPosition, h.1, h.2]

/-- No key can stand behind a number or a blank where none could before. -/
theorem not_opensKey_append {s : List Char} (hs : NumeralOrSpaces s) {out : List Char}
    (h : ¬ OpensKey out) : ¬ OpensKey (s.reverse ++ out) := by
  induction s generalizing out with
  | nil => exact h
  | cons c s ih =>
    rw [List.reverse_cons, List.append_assoc]
    refine ih (fun d hd => hs d (List.mem_cons_of_mem c hd)) ?_
    rcases hs c List.mem_cons_self with hc | hc
    · rw [List.singleton_append, OpensKey, lastSolid?_cons (not_isBlank_of_isNumeralChar hc)]
      rintro (he | he)
      · rw [Option.some.inj he] at hc
        exact absurd hc (by decide)
      · rw [Option.some.inj he] at hc
        exact absurd hc (by decide)
    · have hspace : Spaces [c] := fun d hd => by rw [List.mem_singleton.mp hd]; exact hc
      have hsame := lastSolid?_spaces hspace out
      rw [List.reverse_singleton] at hsame
      rw [OpensKey, hsame]
      exact h

theorem EndsWord.append {rest rest' : List Char} (h : EndsWord rest) (h' : EndsWord rest') :
    EndsWord (rest ++ rest') := by
  cases rest with
  | nil => exact h'
  | cons c r =>
    intro d s hd
    exact h d r (by rw [(List.cons.inj hd).1])

/-- A turn that writes characters of numbers and blanks is taken alike between brackets. -/
theorem RewritingTurn.inside {ambient : Ambient} {out t out' t' : List Char}
    (hturn : RewritingTurn ambient out t out' t')
    (hwritten : ∀ c ∈ out', isNumeralChar c = true ∨ isSpace c = true) {s : List Char}
    (hs : Inside t' s) : ∃ w, out' = w.reverse ++ out ∧ Inside t (w ++ s) := by
  -- none of these is such a character
  have hno : ∀ c, c = '"' ∨ c = '\x7d' ∨ c = ']' ∨ c = 'l' → c ∉ out' := by
    intro c hc hmem
    have hbad := hwritten c hmem
    rcases hc with rfl | rfl | rfl | rfl <;> exact absurd hbad (by decide)
  have hsplit : ∀ {w : List Char}, out' = w.reverse ++ out → NumeralOrSpaces w := by
    rintro w rfl c hc
    exact hwritten c (List.mem_append_left out (List.mem_reverse.mpr hc))
  cases hturn with
  | string hq => exact absurd (List.mem_append_right _ List.mem_cons_self) (hno '"' (Or.inl rfl))
  | @close c r hc =>
    exact absurd List.mem_cons_self (hno c (Or.inr (hc.imp_right Or.inl)))
  | key => exact absurd List.mem_cons_self (hno '"' (Or.inl rfl))
  | undefined => exact absurd List.mem_cons_self (hno 'l' (by decide))
  | @plain w _ hwne hw hends hplain =>
    have hnum := hsplit rfl
    refine ⟨w, rfl, fun ambient' out₁ rest₁ hkey hrest₁ => ?_⟩
    rw [List.append_assoc, rewritten_plain ambient' out₁ hwne hw
      (hends.append hrest₁) (not_isKeyPosition hkey _) (wordSense_plain_congr hplain _),
      hs ambient' _ rest₁ (not_opensKey_append hnum hkey) hrest₁, List.reverse_append,
      List.append_assoc]
  | @call w r con behindName v _ hwne hw hends hsense hcall =>
    have hnum := hsplit rfl
    have hnumber : con.IsNumber := by
      by_contra hcon
      obtain ⟨place, arg, hrender⟩ := exists_render hcall
      obtain ⟨v', rfl⟩ := Constructor.render_brace hcon hrender
      exact absurd (hnum '\x7b' List.mem_cons_self) (by decide)
    obtain ⟨rfl, hsense'⟩ := wordSense_number hnumber hsense
    refine ⟨v, rfl, fun ambient' out₁ rest₁ hkey hrest₁ => ?_⟩
    rw [List.append_assoc, rewritten_call ambient' out₁ hwne hw
      (hends.append hrest₁) (not_isKeyPosition hkey _) (hsense' _)
      (hnumber.callText_append hcall ambient' rest₁),
      hs ambient' _ rest₁ (not_opensKey_append hnum hkey) hrest₁, List.reverse_append,
      List.append_assoc]
  | @other c r hq hb hc hw =>
    have hnum := hsplit (w := [c]) rfl
    refine ⟨[c], rfl, fun ambient' out₁ rest₁ hkey hrest₁ => ?_⟩
    have hnext := hs ambient' (c :: out₁) rest₁ (not_opensKey_append hnum hkey) hrest₁
    rw [List.cons_append, rewritten_other ambient' out₁ hq hb hc hw, hnext, List.singleton_append,
      List.reverse_cons, List.append_assoc]
    rfl

/-- A text that comes out as characters of numbers and blanks comes out alike between brackets. -/
theorem inside_of_numeral {ambient : Ambient} : ∀ (n : Nat) (t out z : List Char), t.length ≤ n →
    rewritten ambient out t = .ok z → NumeralOrSpaces z →
      ∃ s, z = out.reverse ++ s ∧ Inside t s := by
  intro n
  induction n with
  | zero =>
    intro t out z hn h hz
    obtain rfl : t = [] := List.length_eq_zero_iff.mp (Nat.le_zero.mp hn)
    cases h
    exact ⟨[], (List.append_nil _).symm, fun _ _ _ _ _ => rfl⟩
  | succ n ih =>
    intro t out z hn h hz
    by_cases hne : t = []
    · subst hne
      exact ih [] out z (Nat.zero_le n) h hz
    · obtain ⟨out', t', hturn, hrest⟩ := exists_turn hne h
      have hlt := hturn.length_lt
      obtain ⟨s, rfl, hs⟩ := ih t' out' z (by omega) hrest hz
      -- what this turn wrote is part of the result
      have hwritten : ∀ c ∈ out', isNumeralChar c = true ∨ isSpace c = true := fun c hc =>
        hz c (List.mem_append_left s (List.mem_reverse.mpr hc))
      obtain ⟨w, rfl, hinside⟩ := hturn.inside hwritten hs
      refine ⟨w ++ s, ?_, hinside⟩
      rw [List.reverse_append, List.reverse_reverse, List.append_assoc]

end Polyshell.Mongo
