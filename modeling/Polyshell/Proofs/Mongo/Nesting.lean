/-
  Literals that are read nest by kind.

  A scan counts brackets and does not ask for their kinds; the reader of JSON does.  So a text that is
  rewritten to JSON and read can only have the brackets that JSON has, if the rewriting keeps them.

  1. **String literals** — a scan and the copying of a string agree on where it ends, unless it ends with
     the text (`exists_copied_part`).

  2. **Tokens** — what a token becomes has the brackets of the token, or both have brackets that are
     closed at once (`Token.alike`).  Calls are the one exception: the rewriting takes the first closing
     parenthesis for the end of a call, even inside a string literal of its argument (`CutsString`).

  3. **Literals** — token by token the brackets are kept (`Forward.alike`), and strict JSON nests
     (`neutral_of_strict`).  Every other kind of argument has no brackets outside of string literals,
     but for bare identifiers, of which nothing is asked (`nested_of_ofTrimmed`).
-/
import Polyshell.Proofs.Json.Exact
import Polyshell.Proofs.Mongo.Brackets
import Polyshell.Proofs.Mongo.Forward

namespace Polyshell.Mongo

open Polyshell.Text
open Polyshell.Json (Body Spaces Strict stringText isNumeralChar)

/-! ## String literals -/

/-- The state behind the quote that opens a string literal. -/
def Scan.within (q : Char) : Scan := ⟨some q, false, 0⟩

/-- Inside a string literal there is no bracket in the text. -/
def Silent (q : Char) (t : List Char) : Prop := brackets (Scan.within q) t = []

/-- The text ends the string literal. -/
def Ends (q : Char) (t : List Char) : Prop := (Scan.within q).run t = Scan.start

section Within

variable {q c : Char} {t : List Char}

theorem next_quote (hq : Scan.isQuote q = true) : Scan.start.next q = Scan.within q := by
  rw [Scan.next, Scan.start]
  simp only [hq, if_true]
  rfl

theorem ne_backslash_of_isQuote (hq : Scan.isQuote q = true) : q ≠ '\\' := by
  rintro rfl
  exact absurd hq (by decide)

/-- Inside a string literal no character is structural. -/
theorem brackets_within (s : Scan) (hs : s.quote = some q) (c : Char) (t : List Char) :
    brackets s (c :: t) = brackets (s.next c) t := by
  rw [brackets, Scan.structural, hs]
  rfl

theorem silent_cons (c : Char) (t : List Char) :
    Silent q (c :: t) ↔ brackets ((Scan.within q).next c) t = [] := by
  rw [Silent, brackets_within _ rfl]

theorem next_within (hb : c ≠ '\\') (hc : c ≠ q) : (Scan.within q).next c = Scan.within q := by
  simp only [Scan.next, Scan.within, Bool.false_eq_true, if_false, if_neg hb, if_neg hc]

theorem next_within_quote (hq : q ≠ '\\') : (Scan.within q).next q = Scan.start := by
  simp only [Scan.next, Scan.within, Bool.false_eq_true, if_false, if_neg hq, if_true]
  rfl

theorem run_within_escape (q c : Char) (t : List Char) :
    (Scan.within q).run ('\\' :: c :: t) = (Scan.within q).run t := rfl

theorem Silent.escape (h : Silent q t) : Silent q ('\\' :: c :: t) := by
  rw [silent_cons, brackets_within _ rfl]
  exact h

theorem Silent.raw (hb : c ≠ '\\') (hc : c ≠ q) (h : Silent q t) : Silent q (c :: t) := by
  rw [silent_cons, next_within hb hc]
  exact h

theorem Silent.close (hq : q ≠ '\\') : Silent q [q] := by
  rw [silent_cons, next_within_quote hq]
  rfl

theorem Ends.raw (hb : c ≠ '\\') (hc : c ≠ q) (h : Ends q t) : Ends q (c :: t) := by
  rw [Ends, Scan.run_cons, next_within hb hc]
  exact h

theorem Ends.close (hq : q ≠ '\\') : Ends q [q] := by
  rw [Ends, Scan.run_cons, next_within_quote hq]
  rfl

/-- A string literal has no brackets. -/
theorem Silent.brackets (hq : Scan.isQuote q = true) (h : Silent q t) :
    Mongo.brackets Scan.start (q :: t) = [] := by
  rw [Mongo.brackets, Scan.structural, hq, Bool.not_true, Bool.and_false, Bool.false_and,
    if_neg Bool.false_ne_true, next_quote hq]
  exact h

theorem Ends.closed (hq : Scan.isQuote q = true) (h : Ends q t) : StringsClosed (q :: t) := by
  rw [StringsClosed, Scan.run_cons, next_quote hq, h]
  rfl

theorem Neutral.of_string (hq : Scan.isQuote q = true) (hs : Silent q t) (he : Ends q t) :
    Neutral (q :: t) where
  closed := he.closed hq
  pending opened := by rw [hs.brackets hq]; rfl

end Within

/-- What is copied of a text, and the copy, are string literals up to their end; both end there unless
    they go on to the end of the text. -/
theorem exists_copied_part {q : Char} (hq : q ≠ '\\') (x : List Char) :
    ∃ b, x = b ++ (copyString q x).2 ∧ Silent q b ∧ Silent '"' (copyString q x).1 ∧
      ((copyString q x).2 ≠ [] → Ends q b ∧ Ends '"' (copyString q x).1) := by
  have hd : '"' ≠ '\\' := by decide
  fun_induction copyString q x with
  | case1 => exact ⟨[], rfl, rfl, .close hd, fun h => absurd rfl h⟩
  | case2 c r s rest hcopy ih =>
    obtain ⟨b, hb, hsilent, hsilent', hends⟩ := ih
    rw [hcopy] at hb hsilent' hends
    refine ⟨'\\' :: c :: b, by rw [hb]; rfl, hsilent.escape, ?_, fun hrest => ?_⟩
    · dsimp only
      split
      · exact hsilent'.raw (by decide) (by decide)
      · exact hsilent'.escape
    · refine ⟨(hends hrest).1, ?_⟩
      dsimp only
      split
      · exact (hends hrest).2.raw (by decide) (by decide)
      · exact (hends hrest).2
  | case3 r => exact ⟨[q], rfl, .close hq, .close hd, fun _ => ⟨.close hq, .close hd⟩⟩
  | case4 c r hpair hc s rest hcopy ih =>
    obtain ⟨b, hb, hsilent, hsilent', hends⟩ := ih
    rw [hcopy] at hb hsilent' hends
    by_cases hbackslash : c = '\\'
    · -- a backslash at the end of the text
      subst hbackslash
      cases r with
      | nil => 
        cases hcopy
        exact ⟨['\\'], rfl, rfl, rfl, fun h => absurd rfl h⟩
      | cons d r => exact absurd rfl (hpair d r rfl)
    · refine ⟨c :: b, by rw [hb]; rfl, hsilent.raw hbackslash hc, ?_, fun hrest => ?_⟩
      · dsimp only
        split
        · exact hsilent'.escape
        · next hdouble => exact hsilent'.raw hbackslash hdouble
      · refine ⟨(hends hrest).1.raw hbackslash hc, ?_⟩
        dsimp only
        split
        · exact (hends hrest).2
        · next hdouble => exact (hends hrest).2.raw hbackslash hdouble

/-- Between double quotes stands a string literal. -/
theorem ends_of_body {s t : List Char} (h : Body s t) :
    Silent '"' (t ++ ['"']) ∧ Ends '"' (t ++ ['"']) := by
  obtain ⟨b, -, -, hsilent, hends⟩ := exists_copied_part (q := '"') (by decide) (t ++ '"' :: [' '])
  rw [copyString_body h] at hsilent hends
  exact ⟨hsilent, (hends (List.cons_ne_nil ' ' [])).2⟩

theorem neutral_quoted {s t : List Char} (h : Body s t) : Neutral ('"' :: (t ++ ['"'])) :=
  .of_string (by decide) (ends_of_body h).1 (ends_of_body h).2

theorem neutral_stringText (s : String) : Neutral (stringText s) :=
  neutral_quoted (Body.escaped s.toList)

/-- A string that is an argument has no bracket outside of it. -/
theorem silent_of_unescape? {q : Char} (hq : q ≠ '\\') {body s : List Char}
    (h : unescape? q body = some s) : Silent q (body ++ [q]) := by
  fun_induction unescape? q body generalizing s with
  | case1 => exact .close hq
  | case2 => exact .escape rfl
  | case3 c r ih =>
    obtain ⟨s', hs', -⟩ := Option.map_eq_some_iff.mp h
    exact (ih hs').escape
  | case4 => cases h
  | case5 c r hlast hpair hne ih =>
    have hb : c ≠ '\\' := by
      rintro rfl
      cases r with
      | nil => exact hlast rfl rfl
      | cons d r => exact hpair d r rfl rfl
    obtain ⟨s', hs', -⟩ := Option.map_eq_some_iff.mp h
    exact (ih hs').raw hb hne

theorem brackets_of_dequote? {t s : List Char} (h : dequote? t = some s) :
    brackets Scan.start t = [] := by
  obtain ⟨q, body, rfl, hq, hbody⟩ := exists_of_dequote? h
  exact (silent_of_unescape? (ne_backslash_of_isQuote hq) hbody).brackets hq

/-! ## Tokens -/

/-- Whatever is open in front of them, the same is open behind the one text and the other. -/
def Alike (t v : List Char) : Prop :=
  ∀ opened, pending? opened (brackets Scan.start t) = pending? opened (brackets Scan.start v)

theorem Neutral.alike {t v : List Char} (ht : Neutral t) (hv : Neutral v) : Alike t v :=
  fun opened => by rw [ht.pending, hv.pending]

theorem Alike.append {t v r s : List Char} (h : Alike t v) (ht : StringsClosed t)
    (hv : StringsClosed v) (h' : Alike r s) : Alike (t ++ r) (v ++ s) := by
  intro opened
  rw [brackets_append_closed ht, brackets_append_closed hv, pending?_append, pending?_append,
    h opened]
  exact congrArg _ (funext h')

/-- Outside of string literals a constructor is called, and the first closing parenthesis behind its
    opening one stands in a string literal. -/
def CutsString (t : List Char) : Prop :=
  ∃ p con arg call r, t = p ++ (call ++ r) ∧ StringsClosed p ∧ ConstructorCall con arg call ∧
    ¬ StringsClosed arg

theorem Inert.of_isWordChar {c : Char} (h : isWordChar c = true) : Inert c := by
  rw [isWordChar, Bool.or_eq_true, decide_eq_true_eq] at h
  rcases h with h | rfl
  · exact .of_isPlain (isPlain_of_isNameChar h)
  · decide

theorem neutral_word {w : List Char} (hw : ∀ c ∈ w, isWordChar c = true) : Neutral w :=
  .of_inert fun c hc => .of_isWordChar (hw c hc)

theorem neutral_numeral {t : List Char} (h : ∀ c ∈ t, isNumeralChar c = true) : Neutral t :=
  .of_inert fun c hc => .of_isPlain (isPlain_of_isNumeralChar (h c hc))

theorem neutral_blanks {w : List Char} (hw : Blanks w) : Neutral w := .of_inert hw.inert

theorem neutral_inert {c : Char} (h : Inert c) : Neutral [c] :=
  .of_inert fun d hd => by rwa [List.mem_singleton.mp hd]

/-! ### Calls -/

section Call

variable {con : Constructor} {ambient : Ambient} {place : Nat} {arg t v : List Char}

/-- The argument of a call is absent, a string or a number. -/
theorem Constructor.cases_of_render (h : con.render ambient place arg = .ok v) :
    arg = [] ∨ (∃ s, dequote? arg = some s) ∨ ∃ n, number? arg = some n := by
  cases hs : dequote? arg with
  | some s => exact Or.inr (Or.inl ⟨s, rfl⟩)
  | none =>
    cases hn : number? arg with
    | some n => exact Or.inr (Or.inr ⟨n, rfl⟩)
    | none =>
      by_cases hempty : arg.isEmpty = true
      · exact Or.inl (List.isEmpty_iff.mp hempty)
      · cases con <;> simp [render, hempty, hs, hn] at h

/-- It has no bracket outside of string literals. -/
theorem neutral_of_render (h : con.render ambient place (trim arg) = .ok v)
    (harg : StringsClosed arg) : Neutral arg := by
  obtain ⟨w, w', hw, hw', hsplit⟩ := exists_trim arg
  rw [hsplit, closed_append_iff (neutral_blanks hw).closed] at harg
  have htrim : StringsClosed (trim arg) := quote_of_unquoted hw'.unquoted harg
  have hnone : brackets Scan.start (trim arg) = [] := by
    rcases Constructor.cases_of_render h with hempty | ⟨s, hs⟩ | ⟨n, hn⟩
    · rw [hempty]
      rfl
    · exact brackets_of_dequote? hs
    · obtain ⟨-, hchars, -⟩ := number?_spec hn
      exact brackets_inert fun c hc => .of_isPlain (isPlain_of_isNumeralChar (hchars c hc))
  rw [hsplit]
  exact (neutral_blanks hw).append
    (.append ⟨htrim, fun opened => by rw [hnone]; rfl⟩ (neutral_blanks hw'))

theorem ConstructorCall.neutral (ht : ConstructorCall con arg t) (harg : Neutral arg) :
    Neutral t := by
  obtain ⟨hhead, hw, -⟩ := ht
  have hname : ∀ con : Constructor, Neutral con.name.toList := fun con =>
    neutral_word (List.all_eq_true.mp (by cases con <;> decide))
  refine .append ?_ ((neutral_blanks hw).append (harg.enclosed (by decide)))
  cases hhead with
  | name => exact hname con
  | new _ hw =>
    have hnew : Neutral "new".toList := neutral_word (List.all_eq_true.mp (by decide))
    exact hnew.append ((neutral_blanks hw).append (hname con))

/-- So it is with what the call becomes. -/
theorem neutral_made (h : con.render ambient place arg = .ok v) : Neutral v := by
  by_cases hcon : con.IsNumber
  · exact neutral_numeral (hcon.numeralLike h).1
  · obtain ⟨key, x, rfl, hkey, hx⟩ := Constructor.exists_wrapped hcon h
    have hvalue : Neutral x := by
      rcases hx with ⟨s, rfl⟩ | hnumeral
      · exact neutral_stringText s
      · exact neutral_numeral hnumeral.1
    have hmember := (neutral_quoted hkey).append
      ((neutral_inert (c := ':') (by decide)).append hvalue)
    have hobject := hmember.enclosed (o := '\x7b') (c := '\x7d') (by decide)
    simpa using hobject

end Call

/-- **What a token becomes has its brackets**, or brackets that are closed at once; neither leaves a
    string literal open, unless it is the last one. -/
theorem Token.alike {ambient : Ambient} {t r v : List Char} (h : Token ambient t r v)
    (hcut : ∀ con arg, ConstructorCall con arg t → StringsClosed arg) :
    Alike t v ∧ (r ≠ [] → StringsClosed t ∧ StringsClosed v) := by
  have hneutral : ∀ {t v}, Neutral t → Neutral v →
      Alike t v ∧ (r ≠ [] → StringsClosed t ∧ StringsClosed v) :=
    fun ht hv => ⟨ht.alike hv, fun _ => ⟨ht.closed, hv.closed⟩⟩
  cases h with
  | @string q b _ s hq hcopy =>
    obtain ⟨b', hb, hsilent, hsilent', hends⟩ :=
      exists_copied_part (ne_backslash_of_isQuote hq) (b ++ r)
    rw [hcopy] at hb hsilent' hends
    obtain rfl := List.append_cancel_right hb
    refine ⟨fun opened => ?_, fun hr =>
      ⟨(hends hr).1.closed hq, (hends hr).2.closed (by decide)⟩⟩
    rw [hsilent.brackets hq, hsilent'.brackets (by decide)]
  | key hne hw => exact hneutral (neutral_word hw) (neutral_quoted (body_of_word hw))
  | plain hne hw => exact hneutral (neutral_word hw) (neutral_word hw)
  | undefined =>
    exact hneutral (neutral_word (List.all_eq_true.mp (by decide)))
      (neutral_word (List.all_eq_true.mp (by decide)))
  | call ht hv => exact hneutral (ht.neutral (neutral_of_render hv (hcut _ _ ht))) (neutral_made hv)
  | @close u _ c hu hc =>
    have hdropped : Neutral u := by
      cases hu with
      | nothing => exact .of_inert fun c hc => absurd hc List.not_mem_nil
      | comma hw => exact (neutral_inert (c := ',') (by decide)).append (neutral_blanks hw)
    have hclosed : StringsClosed [c] := by rcases hc with rfl | rfl <;> decide
    have hnothing : Neutral [] := .of_inert fun c hc => absurd hc List.not_mem_nil
    exact ⟨(hdropped.alike hnothing).append hdropped.closed hnothing.closed fun _ => rfl,
      fun _ => ⟨(closed_append_iff hdropped.closed [c]).mpr hclosed, hclosed⟩⟩
  | @other c _ hq =>
    have hclosed : StringsClosed [c] := by
      rw [StringsClosed, Scan.run_cons, Scan.run_nil]
      exact Option.not_isSome_iff_eq_none.mp (Bool.eq_false_iff.mp (closed_next hq rfl))
    exact ⟨fun _ => rfl, fun _ => ⟨hclosed, hclosed⟩⟩

/-! ## Literals -/

/-- What becomes of a text token by token has its brackets. -/
theorem Forward.alike {ambient : Ambient} {t z : List Char} (h : Forward ambient t z)
    (hcut : ¬ CutsString t) : Alike t z := by
  induction h with
  | nil => exact fun _ => rfl
  | @cons t r v s ht hrest ih =>
    obtain ⟨halike, hclosed⟩ := ht.alike fun con arg hcall =>
      by_contra fun hopen => hcut ⟨[], con, arg, t, r, rfl, rfl, hcall, hopen⟩
    by_cases hr : r = []
    · subst hr
      rw [hrest.eq_nil, List.append_nil, List.append_nil]
      exact halike
    · obtain ⟨ht', hv'⟩ := hclosed hr
      refine halike.append ht' hv' (ih ?_)
      rintro ⟨p, con, arg, call, r', rfl, hp, hcall, hopen⟩
      exact hcut ⟨t ++ p, con, arg, call, r', (List.append_assoc t p _).symm,
        (closed_append_iff ht' p).mpr hp, hcall, hopen⟩

/-- Strict JSON nests. -/
theorem neutral_of_strict {d : Nat} {part : Json.Part} {t : List Char} (h : Strict d part t) :
    Neutral t := by
  have hspaces : ∀ {w}, Spaces w → Neutral w := fun hw => neutral_blanks (.of_spaces hw)
  have hcolon : Neutral [':'] := neutral_inert (by decide)
  have hcomma : Neutral [','] := neutral_inert (by decide)
  induction h with
  | null | isTrue | isFalse => exact neutral_word (List.all_eq_true.mp (by decide))
  | num h => exact neutral_numeral h.chars
  | str h => exact neutral_quoted h
  | noItems hw => exact (hspaces hw).enclosed (by decide)
  | arr _ ih => exact ih.enclosed (by decide)
  | noMembers hw => exact (hspaces hw).enclosed (by decide)
  | obj _ ih => exact ih.enclosed (by decide)
  | lastItem hw _ hw' ih => exact (hspaces hw).append (ih.append (hspaces hw'))
  | item hw _ hw' _ ih ih' =>
    exact (hspaces hw).append (ih.append ((hspaces hw').append (hcomma.append ih')))
  | lastMember hw hk hw₁ hw₂ _ hw' ih =>
    have hmember := (hspaces hw).append ((neutral_quoted hk).append ((hspaces hw₁).append
      (hcolon.append ((hspaces hw₂).append (ih.append (hspaces hw'))))))
    simpa using hmember
  | member hw hk hw₁ hw₂ _ hw' _ ih ih' =>
    have hmember := (hspaces hw).append ((neutral_quoted hk).append ((hspaces hw₁).append
      (hcolon.append ((hspaces hw₂).append (ih.append ((hspaces hw').append (hcomma.append ih')))))))
    simpa using hmember

/-- A literal that is read nests. -/
theorem nested_of_ofLiteral {ambient : Ambient} {t : List Char} {a : Argument}
    (h : Argument.ofLiteral ambient t = .ok a) (hcut : ¬ CutsString t) : Nested t := by
  obtain ⟨z, v, hz, hv, -⟩ := exists_strict h
  obtain ⟨z, rfl, hforward⟩ :=
    forward_of_rewritten _ t [] z (Nat.le_refl _) (fun hlast => nomatch hlast) hz
  obtain ⟨w, s, w', rfl, hw, hstrict, hw'⟩ := Json.readWithin_eq_ok_iff.mp hv
  have hneutral : Neutral (w ++ (s ++ w')) := (neutral_blanks (.of_spaces hw)).append
    ((neutral_of_strict hstrict).append (neutral_blanks (.of_spaces hw')))
  rw [Nested, hforward.alike hcut]
  exact hneutral.nested

/-- **An argument that is read as anything but a bare identifier nests.** -/
theorem nested_of_ofTrimmed {ambient : Ambient} {t : List Char} {a : Argument}
    (h : Argument.ofTrimmed ambient t = .ok a) (ha : ∀ s, a ≠ .raw s) (hcut : ¬ CutsString t) :
    Nested t := by
  by_cases hword : ∃ w ∈ valueWords, t = w.toList
  · obtain ⟨w, hw, rfl⟩ := hword
    have hall : ∀ w ∈ valueWords, Nested w.toList := by decide
    exact hall w hw
  · rw [ofTrimmed_of_not_word ambient fun w hw he => hword ⟨w, hw, he⟩] at h
    cases hn : number? t with
    | some n => exact (neutral_numeral (number?_spec hn).2.1).nested
    | none =>
      cases hs : dequote? t with
      | some s =>
        rw [Nested, brackets_of_dequote? hs]
        rfl
      | none =>
        simp only [hn, hs] at h
        split at h
        · exact nested_of_ofLiteral h hcut
        · cases h
          exact absurd rfl (ha _)

end Polyshell.Mongo
