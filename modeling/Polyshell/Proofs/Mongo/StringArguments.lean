/-
  An argument is a string exactly if it is one string literal.

  Two readers follow the escapes of a string.  A scan goes through a text character by character and
  knows where a string literal ends that was opened.  The reader of strings guesses instead: it takes
  the last character for the closing quote, and then looks between the two for one without a backslash.
  On arbitrary texts they disagree: in `"a\"` the last quote closes nothing, but the reader takes it for
  the closing one.  An argument leaves nothing open at its end, and there they agree:

  1. **Scans** — `IsStringLiteral t` is said of the scan alone.  Between the quotes it means that the
     literal goes on through the body (`Lasts`) and ends with the closing quote
     (`isStringLiteral_iff`).

  2. **Escapes** — the reader of strings takes what goes on, and nothing else (`exists_unescape?_iff`);
     if a quote behind it ends it, every backslash in it has its character, and the result is what
     `StandsFor` says.

  3. **Arguments** — `string_argument_iff`: nothing else is ever read as a string.
-/
import Polyshell.Proofs.Mongo.Nesting

namespace Polyshell.Mongo

open Polyshell.Text

/-! ## What strings stand for -/

/-- The characters that may stand behind a backslash, and what they stand for there. -/
def escapes : List (Char × Char) :=
  [('n', '\n'), ('t', '\t'), ('r', '\r'), ('\\', '\\'), ('\'', '\''), ('"', '"')]

/-- `StandsFor body s` — between quotes, `body` stands for `s`. -/
inductive StandsFor : List Char → List Char → Prop
  | nil : StandsFor [] []
  | raw {c : Char} {body s : List Char} (hb : c ≠ '\\') (h : StandsFor body s) :
      StandsFor (c :: body) (c :: s)
  | escape {c x : Char} {body s : List Char} (hx : (c, x) ∈ escapes) (h : StandsFor body s) :
      StandsFor ('\\' :: c :: body) (x :: s)
  /-- In front of any other character a backslash stands for itself. -/
  | foreign {c : Char} {body s : List Char} (hc : c ∉ escapes.map Prod.fst) (h : StandsFor body s) :
      StandsFor ('\\' :: c :: body) ('\\' :: c :: s)

/-- The text is one string literal from its first character to its last: a quote opens it, and a scan
    of the text is outside of it again behind the whole text and not before. -/
structure IsStringLiteral (t : List Char) : Prop where
  opens : ∃ q r, t = q :: r ∧ Scan.isQuote q = true
  closes : ∀ p, p <+: t → p ≠ [] → ((Scan.start.run p).inString = false ↔ p = t)

/-! ## Scans -/

/-- A string literal that `q` opened goes on through the text. -/
def Lasts (q : Char) (body : List Char) : Prop :=
  ∀ p, p <+: body → ((Scan.within q).run p).inString = true

namespace Lasts

variable {q c : Char} {body : List Char}

theorem nil : Lasts q [] := by
  intro p hp
  rw [List.prefix_nil.mp hp]
  rfl

theorem raw_iff (hb : c ≠ '\\') (hc : c ≠ q) : Lasts q (c :: body) ↔ Lasts q body := by
  have hrun : ∀ p, (Scan.within q).run (c :: p) = (Scan.within q).run p := fun p => by
    rw [Scan.run_cons, next_within hb hc]
  constructor
  · intro h p hp
    rw [← hrun]
    exact h (c :: p) (List.cons_prefix_cons.mpr ⟨rfl, hp⟩)
  · intro h p hp
    rcases List.prefix_cons_iff.mp hp with rfl | ⟨p', rfl, hp'⟩
    · rfl
    · rw [hrun]
      exact h p' hp'

theorem escape_iff : Lasts q ('\\' :: c :: body) ↔ Lasts q body := by
  constructor
  · intro h p hp
    rw [← run_within_escape q c]
    exact h ('\\' :: c :: p) (List.cons_prefix_cons.mpr ⟨rfl, List.cons_prefix_cons.mpr ⟨rfl, hp⟩⟩)
  · intro h p hp
    rcases List.prefix_cons_iff.mp hp with rfl | ⟨p', rfl, hp'⟩
    · rfl
    · rcases List.prefix_cons_iff.mp hp' with rfl | ⟨p'', rfl, hp''⟩
      · rfl
      · rw [run_within_escape]
        exact h p'' hp''

/-- A backslash at the end still waits for its character. -/
theorem backslash : Lasts q ['\\'] := by
  intro p hp
  rcases List.prefix_cons_iff.mp hp with rfl | ⟨p', rfl, hp'⟩
  · rfl
  · rw [List.prefix_nil.mp hp']
    rfl

theorem ne_quote (hq : q ≠ '\\') (h : Lasts q (c :: body)) : c ≠ q := by
  rintro rfl
  have hinside := h [c] (List.cons_prefix_cons.mpr ⟨rfl, List.nil_prefix⟩)
  rw [Scan.run_cons, next_within_quote hq] at hinside
  cases hinside

/-- Behind the text, the scan is where it was; only its last character may have been a backslash. -/
theorem exists_run (h : Lasts q body) :
    ∃ escaped, (Scan.within q).run body = ⟨some q, escaped, 0⟩ := by
  induction body using List.reverseRecOn with
  | nil => exact ⟨false, rfl⟩
  | append_singleton body c ih =>
    obtain ⟨escaped, hrun⟩ := ih fun p hp => h p (hp.trans (List.prefix_append body [c]))
    have hinside := h (body ++ [c]) List.prefix_rfl
    rw [Scan.run_append, hrun, Scan.run_cons, Scan.run_nil] at hinside ⊢
    cases escaped with
    | true => exact ⟨false, rfl⟩
    | false =>
      by_cases hb : c = '\\'
      · exact ⟨true, by rw [hb]; rfl⟩
      · have hc : c ≠ q := by
          rintro rfl
          have hclosed := next_within_quote hb
          rw [Scan.within] at hclosed
          rw [hclosed] at hinside
          cases hinside
        exact ⟨false, next_within hb hc⟩

/-- The character that ends it is the quote that opened it. -/
theorem closes (h : Lasts q body) (hclosed : ((Scan.within q).run (body ++ [c])).inString = false) :
    c = q ∧ Ends q (body ++ [c]) := by
  obtain ⟨escaped, hrun⟩ := h.exists_run
  rw [Ends]
  rw [Scan.run_append, hrun, Scan.run_cons, Scan.run_nil] at hclosed ⊢
  cases escaped with
  | true => cases hclosed
  | false =>
    by_cases hb : c = '\\'
    · rw [hb] at hclosed
      cases hclosed
    · by_cases hc : c = q
      · subst hc
        exact ⟨rfl, next_within_quote hb⟩
      · have hopen : Scan.next ⟨some q, false, 0⟩ c = Scan.within q := next_within hb hc
        rw [hopen] at hclosed
        cases hclosed

end Lasts

theorem prefix_ne_concat {p a : List Char} {c : Char} (h : p <+: a) : p ≠ a ++ [c] := by
  rintro rfl
  have hle := h.length_le
  rw [List.length_append, List.length_singleton] at hle
  omega

/-- Between its quotes, a string literal goes on through its body and then ends. -/
theorem isStringLiteral_iff {t : List Char} : IsStringLiteral t ↔
    ∃ q body, t = q :: (body ++ [q]) ∧ Scan.isQuote q = true ∧ Lasts q body ∧
      Ends q (body ++ [q]) := by
  constructor
  · rintro ⟨⟨q, r, rfl, hq⟩, hcloses⟩
    have hrun : ∀ p, Scan.start.run (q :: p) = (Scan.within q).run p := fun p => by
      rw [Scan.run_cons, next_quote hq]
    have hclosed := (hcloses (q :: r) List.prefix_rfl (List.cons_ne_nil q r)).mpr rfl
    rw [hrun] at hclosed
    rcases List.eq_nil_or_concat r with rfl | ⟨body, c, rfl⟩
    · cases hclosed
    · rw [List.concat_eq_append] at *
      have hlasts : Lasts q body := by
        intro p hp
        have hprefix : q :: p <+: q :: (body ++ [c]) :=
          List.cons_prefix_cons.mpr ⟨rfl, hp.trans (List.prefix_append body [c])⟩
        rw [← hrun, ← Bool.not_eq_false, hcloses _ hprefix (List.cons_ne_nil q p)]
        exact fun he => prefix_ne_concat hp (List.cons.inj he).2
      obtain ⟨rfl, hends⟩ := hlasts.closes hclosed
      exact ⟨c, body, rfl, hq, hlasts, hends⟩
  · rintro ⟨q, body, rfl, hq, hlasts, hends⟩
    refine ⟨⟨q, _, rfl, hq⟩, fun p hp hne => ?_⟩
    obtain ⟨p', rfl, hp'⟩ := (List.prefix_cons_iff.mp hp).resolve_left hne
    rw [Scan.run_cons, next_quote hq]
    rcases List.prefix_concat_iff.mp hp' with rfl | hshort
    · rw [hends]
      exact ⟨fun _ => rfl, fun _ => rfl⟩
    · rw [hlasts p' hshort]
      constructor
      · intro hopen
        cases hopen
      · intro he
        exact absurd (List.cons.inj he).2 (prefix_ne_concat hshort)

/-! ## The reader of strings -/

/-- What is neither the last backslash nor one in front of a character is none. -/
theorem ne_backslash_of_single {c : Char} {r : List Char} (hlast : c = '\\' → r = [] → False)
    (hpair : ∀ d s, c = '\\' → r = d :: s → False) : c ≠ '\\' := by
  rintro rfl
  cases r with
  | nil => exact hlast rfl rfl
  | cons d s => exact hpair d s rfl rfl

/-- It takes what goes on, and nothing else. -/
theorem exists_unescape?_iff {q : Char} (hq : q ≠ '\\') {body : List Char} :
    (∃ s, unescape? q body = some s) ↔ Lasts q body := by
  fun_induction unescape? q body with
  | case1 => exact ⟨fun _ => Lasts.nil, fun _ => ⟨[], rfl⟩⟩
  | case2 => exact ⟨fun _ => Lasts.backslash, fun _ => ⟨[], rfl⟩⟩
  | case3 c r ih =>
    rw [Lasts.escape_iff, ← ih]
    simp
  | case4 r =>
    constructor
    · rintro ⟨s, hs⟩
      cases hs
    · exact fun h => absurd rfl (h.ne_quote hq)
  | case5 c r hlast hpair hne ih =>
    have hb := ne_backslash_of_single hlast hpair
    rw [Lasts.raw_iff hb hne, ← ih]
    simp

theorem unescapeChar_of_mem {c x : Char} (h : (c, x) ∈ escapes) : unescapeChar c = [x] := by
  simp only [escapes, List.mem_cons, Prod.mk.injEq, List.not_mem_nil, or_false] at h
  rcases h with ⟨rfl, rfl⟩ | ⟨rfl, rfl⟩ | ⟨rfl, rfl⟩ | ⟨rfl, rfl⟩ | ⟨rfl, rfl⟩ | ⟨rfl, rfl⟩ <;> rfl

/-- If a quote behind it ends it, a body is read as what it stands for. -/
theorem standsFor_of_unescape? {q : Char} {body s : List Char} (hends : Ends q (body ++ [q]))
    (h : unescape? q body = some s) : StandsFor body s := by
  fun_induction unescape? q body generalizing s with
  | case1 =>
    cases h
    exact .nil
  | case2 => cases hends
  | case3 c r ih =>
    obtain ⟨s', hs', rfl⟩ := Option.map_eq_some_iff.mp h
    have hrest := ih hends hs'
    by_cases hc : c ∈ escapes.map Prod.fst
    · obtain ⟨⟨_, x⟩, hx, rfl⟩ := List.mem_map.mp hc
      rw [unescapeChar_of_mem hx]
      exact .escape hx hrest
    · rw [unescapeChar_foreign hc]
      exact .foreign hc hrest
  | case4 => cases h
  | case5 c r hlast hpair hne ih =>
    have hb := ne_backslash_of_single hlast hpair
    obtain ⟨s', hs', rfl⟩ := Option.map_eq_some_iff.mp h
    rw [List.cons_append, Ends, Scan.run_cons, next_within hb hne] at hends
    exact .raw hb (ih hends hs')

theorem unescape?_of_standsFor {q : Char} (hq : q ≠ '\\') {body s : List Char} (hlasts : Lasts q body)
    (h : StandsFor body s) : unescape? q body = some s := by
  induction h with
  | nil => rfl
  | raw hb _ ih =>
    have hc := hlasts.ne_quote hq
    rw [unescape?.eq_4 q _ _ (fun he => absurd he hb) (fun _ _ he => absurd he hb), if_neg hc,
      ih ((Lasts.raw_iff hb hc).mp hlasts)]
    rfl
  | escape hx _ ih =>
    rw [unescape?, ih (Lasts.escape_iff.mp hlasts), unescapeChar_of_mem hx]
    rfl
  | foreign hc _ ih =>
    rw [unescape?, ih (Lasts.escape_iff.mp hlasts), unescapeChar_foreign hc]
    rfl

/-! ## Arguments -/

theorem dequote?_of_unescape? {q : Char} (hq : Scan.isQuote q = true) {body s : List Char}
    (h : unescape? q body = some s) : dequote? (q :: (body ++ [q])) = some s := by
  rw [dequote?, List.getLast?_concat, List.dropLast_concat, if_pos (by rw [hq, beq_self_eq_true]; rfl),
    h]

section Closed

variable {t : List Char} (hclosed : StringsClosed t)
include hclosed

/-- Where nothing is left open, the last character is the closing quote that it is taken for. -/
theorem dequote?_eq_some_iff {s : List Char} : dequote? t = some s ↔
    IsStringLiteral t ∧ ∃ q body, t = q :: (body ++ [q]) ∧ StandsFor body s := by
  constructor
  · intro h
    obtain ⟨q, body, rfl, hq, hbody⟩ := exists_of_dequote? h
    have hlasts := (exists_unescape?_iff (ne_backslash_of_isQuote hq)).mp ⟨s, hbody⟩
    rw [StringsClosed, Scan.run_cons, next_quote hq] at hclosed
    obtain ⟨-, hends⟩ := hlasts.closes (by rw [Scan.inString, hclosed]; rfl)
    exact ⟨isStringLiteral_iff.mpr ⟨q, body, rfl, hq, hlasts, hends⟩, q, body, rfl,
      standsFor_of_unescape? hends hbody⟩
  · rintro ⟨hliteral, q, body, rfl, hs⟩
    obtain ⟨q', body', ht, hq, hlasts, -⟩ := isStringLiteral_iff.mp hliteral
    obtain ⟨rfl, ht⟩ := List.cons.inj ht
    rw [← List.append_cancel_right ht] at hlasts
    exact dequote?_of_unescape? hq (unescape?_of_standsFor (ne_backslash_of_isQuote hq) hlasts hs)

theorem exists_dequote?_iff : (∃ s, dequote? t = some s) ↔ IsStringLiteral t := by
  constructor
  · rintro ⟨s, hs⟩
    exact ((dequote?_eq_some_iff hclosed).mp hs).1
  · intro h
    obtain ⟨q, body, rfl, hq, hlasts, -⟩ := isStringLiteral_iff.mp h
    obtain ⟨s, hs⟩ := (exists_unescape?_iff (ne_backslash_of_isQuote hq)).mpr hlasts
    exact ⟨s, dequote?_of_unescape? hq hs⟩

end Closed

/-- A string is no word and no number, and no literal is ever a string. -/
theorem ofTrimmed_eq_str_iff {ambient : Ambient} {t : List Char} {s : String} :
    Argument.ofTrimmed ambient t = .ok (.str s) ↔ dequote? t = some s.toList := by
  constructor
  · intro h
    rw [Argument.ofTrimmed] at h
    -- the words come first, then the numbers, the strings, and the literals
    split at h; · cases h
    split at h; · cases h
    split at h; · cases h
    split at h; · cases h
    split at h; · cases h
    split at h
    · next hs =>
      cases h
      rw [hs, String.toList_ofList]
    · split at h
      · next hliteral =>
        obtain ⟨p, m, w₀, hnumber, -⟩ := numeral_of_literal hliteral h trivial
        cases hnumber
      · cases h
  · intro h
    obtain ⟨q, body, rfl, hq, -⟩ := exists_of_dequote? h
    have hfirst : q ≠ '-' ∧ Decimal.isDigit q = false ∧
        some q ∉ [some 't', some 'f', some 'n', some 'u'] := by
      rw [Scan.isQuote, Bool.or_eq_true, decide_eq_true_eq, decide_eq_true_eq] at hq
      rcases hq with rfl | rfl <;> decide
    have hword : ∀ w ∈ valueWords, q :: (body ++ [q]) ≠ w.toList := by
      intro w hw he
      have hheads : ∀ w ∈ valueWords,
          w.toList.head? ∈ [some 't', some 'f', some 'n', some 'u'] := by decide
      have hhead := hheads w hw
      rw [← he] at hhead
      exact hfirst.2.2 hhead
    rw [ofTrimmed_of_not_word ambient hword, number?_eq_none hfirst.1 hfirst.2.1, h]
    simp only [String.ofList_toList]

/-- **An argument is a string exactly if it is one string literal.**  The reader of strings takes it
    exactly if a scan of it leaves the string literal that its first character opens with its last
    character and not before; exactly then the argument is read as a string, which is what stands
    between the quotes, with its escapes resolved. -/
theorem string_argument_iff (ambient : Ambient) {inner : String} {args : List String}
    (h : splitArguments inner = .ok args) {arg : String} (harg : arg ∈ args) :
    ((dequote? arg.toList).isSome = true ↔ IsStringLiteral arg.toList) ∧
    ((∃ s, Argument.ofText ambient arg.toList = .ok (.str s)) ↔ IsStringLiteral arg.toList) ∧
    ∀ s, Argument.ofText ambient arg.toList = .ok (.str s) ↔
      IsStringLiteral arg.toList ∧
        ∃ q body, arg.toList = q :: (body ++ [q]) ∧ StandsFor body s.toList := by
  obtain ⟨hsolid, hpiece⟩ := (splitArguments_eq_ok_iff.mp h).1 _ (List.mem_map_of_mem harg)
  have hclosed : StringsClosed arg.toList := (settled_iff.mp hpiece.settled).1
  have hread : ∀ s, Argument.ofText ambient arg.toList = .ok (.str s) ↔
      dequote? arg.toList = some s.toList := fun s => by
    rw [Argument.ofText, hsolid.trim, ofTrimmed_eq_str_iff]
  refine ⟨?_, ?_, fun s => ?_⟩
  · rw [Option.isSome_iff_exists, exists_dequote?_iff hclosed]
  · rw [← exists_dequote?_iff hclosed]
    constructor
    · rintro ⟨s, hs⟩
      exact ⟨s.toList, (hread s).mp hs⟩
    · rintro ⟨s, hs⟩
      exact ⟨String.ofList s, (hread _).mpr (by rw [String.toList_ofList, hs])⟩
  · rw [hread, dequote?_eq_some_iff hclosed]

/-- A closing quote behind two backslashes, a quote and another character behind one each, and two
    literals next to each other. -/
theorem string_argument_iff_adjacent :
    splitArguments "\"a\\\\\", 'it\\'s \\q', \"a\" \"b\"" =
        .ok ["\"a\\\\\"", "'it\\'s \\q'", "\"a\" \"b\""] ∧
      Argument.ofText ⟨0, fun _ => default⟩ "\"a\\\\\"".toList = .ok (.str "a\\") ∧
      Argument.ofText ⟨0, fun _ => default⟩ "'it\\'s \\q'".toList = .ok (.str "it's \\q") ∧
      ¬ IsStringLiteral "\"a\" \"b\"".toList := by
  have h : splitArguments "\"a\\\\\", 'it\\'s \\q', \"a\" \"b\"" =
      .ok ["\"a\\\\\"", "'it\\'s \\q'", "\"a\" \"b\""] := by decide +kernel
  obtain ⟨hfirst, -, hfirstValue⟩ := string_argument_iff ⟨0, fun _ => default⟩ h List.mem_cons_self
  obtain ⟨hsecond, -, hsecondValue⟩ := string_argument_iff ⟨0, fun _ => default⟩ h
    (List.mem_cons_of_mem _ List.mem_cons_self)
  obtain ⟨hthird, -, -⟩ := string_argument_iff ⟨0, fun _ => default⟩ h
    (List.mem_cons_of_mem _ (List.mem_cons_of_mem _ List.mem_cons_self))
  have ha : StandsFor ['a', '\\', '\\'] ['a', '\\'] := .raw (by decide) (.escape (by decide) .nil)
  have hit : StandsFor "it\\'s \\q".toList "it's \\q".toList :=
    .raw (by decide) (.raw (by decide) (.escape (by decide) (.raw (by decide) (.raw (by decide)
      (.foreign (by decide) .nil)))))
  exact ⟨h, (hfirstValue _).mpr ⟨hfirst.mp (by decide), '"', _, rfl, ha⟩,
    (hsecondValue _).mpr ⟨hsecond.mp (by decide), '\'', _, rfl, hit⟩,
    fun hliteral => absurd (hthird.mpr hliteral) (by decide)⟩

end Polyshell.Mongo
