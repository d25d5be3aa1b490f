/-
  The lines that have given words.

  A word is written in segments, one directly behind another: plain characters as they are, or any
  text between two quotes of a kind that does not occur in it.  So a quote may open in the middle of
  a word, a quote of the other kind stands for itself, and an empty pair of quotes is a word.

  1. **Segments** — `Segment`, `Word`: what is written, and what it stands for.

  2. **One word** — a word is read as what it stands for where a blank or the end of the line is
     behind it (`Word.tokensFrom`); an open quote reaches to the end of the line
     (`tokensFrom_unclosed`).

  3. **Lines** — `Line words line` says that the line is such words with blanks between and around
     them.  Every line is (`exists_line`), since it can be cut where a quote closes or a blank
     divides; and every list of texts has a line, as each of its characters can be quoted alone
     (`exists_written`).  Hence `tokenize_exact`.
-/
import Polyshell.Proofs.Mongo.Coercion
import Polyshell.Redis.Tokens

namespace Polyshell.Redis

open Polyshell.Text
open Polyshell.Mongo (Blanks)

/-! ## Segments -/

/-- A character that can stand in a word without quotes. -/
def IsPlain (c : Char) : Prop := isBlank c = false ∧ c ≠ '"' ∧ c ≠ '\''

/-- The two kinds of quotes. -/
inductive Quote where
  | single
  | double
deriving DecidableEq

def Quote.mark : Quote → Char
  | .single => '\''
  | .double => '"'

/-- A part of a word. -/
inductive Segment where
  | plain (text : List Char) (filled : text ≠ []) (isPlain : ∀ c ∈ text, IsPlain c)
  | quoted (q : Quote) (text : List Char) (free : q.mark ∉ text)

namespace Segment

def written : Segment → List Char
  | plain text _ _ => text
  | quoted q text _ => q.mark :: (text ++ [q.mark])

def content : Segment → List Char
  | plain text _ _ => text
  | quoted _ text _ => text

def isQuoted : Segment → Bool
  | plain _ _ _ => false
  | quoted _ _ _ => true

end Segment

/-- What segments are written as, one directly behind another. -/
def written (segments : List Segment) : List Char := segments.flatMap Segment.written

/-- What they stand for. -/
def content (segments : List Segment) : List Char := segments.flatMap Segment.content

/-- A word, in segments. -/
structure Word where
  segments : List Segment
  filled : segments ≠ []

def Word.content (w : Word) : List Char := Redis.content w.segments

/-- A word that ends in quotes. -/
def Word.ending (segments : List Segment) (q : Quote) (t : List Char) (free : q.mark ∉ t) : Word where
  segments := segments ++ [.quoted q t free]
  filled := List.append_ne_nil_of_right_ne_nil _ (List.cons_ne_nil _ _)

theorem Word.content_ending (segments : List Segment) (q : Quote) (t : List Char)
    (free : q.mark ∉ t) : (ending segments q t free).content = Redis.content segments ++ t := by
  rw [Word.content, ending, Redis.content, List.flatMap_append, List.flatMap_singleton]
  rfl

/-! ## One word -/

/-- No blank is a quote. -/
theorem not_quote_of_isBlank {c : Char} (h : isBlank c = true) : ¬ (c = '"' ∨ c = '\'') := by
  rintro (rfl | rfl) <;> exact absurd h (by decide)

/-- Blanks in front of a word are skipped. -/
theorem tokensFrom_blanks {w : List Char} (hw : Blanks w) (r : List Char) :
    tokensFrom none [] false (w ++ r) = tokensFrom none [] false r := by
  induction w with
  | nil => rfl
  | cons c w ih =>
    have hc := hw c List.mem_cons_self
    have hrest := ih fun d hd => hw d (List.mem_cons_of_mem c hd)
    simpa [tokensFrom, not_quote_of_isBlank hc, hc] using hrest

/-- Plain characters are added to the word so far. -/
theorem tokensFrom_plain {w : List Char} (hw : ∀ c ∈ w, IsPlain c) (current r : List Char)
    (quoted : Bool) :
    tokensFrom none current quoted (w ++ r) = tokensFrom none (w.reverse ++ current) quoted r := by
  induction w generalizing current with
  | nil => rfl
  | cons c w ih =>
    obtain ⟨hblank, hdouble, hsingle⟩ := hw c List.mem_cons_self
    have hrest := ih (fun d hd => hw d (List.mem_cons_of_mem c hd)) (c :: current)
    simpa [tokensFrom, hdouble, hsingle, hblank] using hrest

/-- A quote opens anywhere. -/
theorem tokensFrom_mark (q : Quote) (current r : List Char) (quoted : Bool) :
    tokensFrom none current quoted (q.mark :: r) = tokensFrom (some q.mark) current true r := by
  cases q <;> rfl

/-- All characters but its own mark are added to the word so far while a quote is open. -/
theorem tokensFrom_inside {q : Quote} {t : List Char} (ht : q.mark ∉ t) (current r : List Char) :
    tokensFrom (some q.mark) current true (t ++ r) =
      tokensFrom (some q.mark) (t.reverse ++ current) true r := by
  induction t generalizing current with
  | nil => rfl
  | cons c t ih =>
    have hc : c ≠ q.mark := fun heq => ht (heq ▸ List.mem_cons_self)
    have hrest := ih (fun hmem => ht (List.mem_cons_of_mem c hmem)) (c :: current)
    simpa [tokensFrom, hc] using hrest

/-- A segment adds what it stands for. -/
theorem Segment.tokensFrom (x : Segment) (current r : List Char) (quoted : Bool) :
    Redis.tokensFrom none current quoted (x.written ++ r) =
      Redis.tokensFrom none (x.content.reverse ++ current) (quoted || x.isQuoted) r := by
  cases x with
  | plain text filled isPlain =>
    rw [isQuoted, Bool.or_false]
    exact tokensFrom_plain isPlain current r quoted
  | quoted q text free =>
    have hclosed : ∀ word : List Char, Redis.tokensFrom (some q.mark) word true (q.mark :: r) =
        Redis.tokensFrom none word true r := fun word => if_pos rfl
    rw [isQuoted, Bool.or_true, written, List.cons_append, List.append_assoc, tokensFrom_mark,
      tokensFrom_inside free, List.singleton_append, hclosed]
    rfl

theorem tokensFrom_segments (segments : List Segment) (current r : List Char) (quoted : Bool) :
    tokensFrom none current quoted (written segments ++ r) =
      tokensFrom none ((content segments).reverse ++ current)
        (quoted || segments.any Segment.isQuoted) r := by
  induction segments generalizing current quoted with
  | nil => rw [List.any_nil, Bool.or_false]; rfl
  | cons x segments ih =>
    have hwritten : written (x :: segments) = x.written ++ written segments := rfl
    have hcontent : content (x :: segments) = x.content ++ content segments := rfl
    rw [hwritten, hcontent, List.append_assoc, x.tokensFrom, ih, List.any_cons, Bool.or_assoc,
      List.reverse_append, List.append_assoc]

/-- A word is not lost, even if it is empty. -/
theorem Word.kept (w : Word) :
    (w.segments.any Segment.isQuoted || !(Redis.content w.segments).reverse.isEmpty) = true := by
  obtain ⟨segments, filled⟩ := w
  obtain ⟨x, segments, rfl⟩ := List.exists_cons_of_ne_nil filled
  cases x with
  | plain text hne isPlain =>
    have hcontent : Redis.content (.plain text hne isPlain :: segments) ≠ [] :=
      List.append_ne_nil_of_left_ne_nil hne _
    simp [hcontent]
  | quoted q text free => rfl

/-- A word is read as what it stands for where a blank or the end of the line is behind it. -/
theorem Word.tokensFrom (w : Word) {r : List Char} (hr : ∀ c ∈ r.head?, isBlank c = true) :
    Redis.tokensFrom none [] false (written w.segments ++ r) =
      w.content :: Redis.tokensFrom none [] false r := by
  have hkept := w.kept
  rw [tokensFrom_segments, List.append_nil, Bool.false_or]
  cases r with
  | nil =>
    rw [Redis.tokensFrom, if_pos hkept, List.reverse_reverse]
    rfl
  | cons c r =>
    have hc : isBlank c = true := hr c rfl
    have hgap := tokensFrom_blanks (w := [c]) (fun d hd => List.mem_singleton.mp hd ▸ hc) r
    rw [List.singleton_append] at hgap
    have hmark : ¬ (c = '"' || c = '\'') = true := by simpa using not_quote_of_isBlank hc
    rw [hgap, Redis.tokensFrom, if_neg hmark, if_pos hc, if_pos hkept, List.reverse_reverse]
    rfl

/-- A word without quotes is read as it is. -/
theorem tokensFrom_word {w : List Char} (hne : w ≠ []) (hw : ∀ c ∈ w, IsPlain c) {r : List Char}
    (hr : ∀ c ∈ r.head?, isBlank c = true) :
    tokensFrom none [] false (w ++ r) = w :: tokensFrom none [] false r := by
  have hread := Word.tokensFrom ⟨[.plain w hne hw], List.cons_ne_nil _ _⟩ hr
  have hwritten : written [.plain w hne hw] = w := List.append_nil w
  have hcontent : content [.plain w hne hw] = w := List.append_nil w
  rwa [Word.content, hwritten, hcontent] at hread

/-- A quote that is left open reaches to the end of the line. -/
theorem tokensFrom_unclosed (segments : List Segment) {q : Quote} {t : List Char}
    (ht : q.mark ∉ t) : tokensFrom none [] false (written segments ++ q.mark :: t) = [content segments ++ t] := by
  have hend := tokensFrom_inside ht (content segments).reverse []
  rw [List.append_nil] at hend
  rw [tokensFrom_segments, tokensFrom_mark, List.append_nil, hend]
  simp [tokensFrom]

/-! ## Lines -/

/-- A line that consists of words, with blanks between and around them. In the last word the quote
    that was opened last may be left open. -/
inductive Line : List Word → List Char → Prop
  | blank {b : List Char} (hb : Blanks b) : Line [] b
  | unclosed {b : List Char} (hb : Blanks b) (segments : List Segment) (q : Quote) (t : List Char)
      (free : q.mark ∉ t) :
      Line [.ending segments q t free] (b ++ (written segments ++ q.mark :: t))
  | word {b : List Char} (hb : Blanks b) (w : Word) {words : List Word} {rest : List Char}
      (hrest : Line words rest) (hdivided : ∀ c ∈ rest.head?, isBlank c = true) :
      Line (w :: words) (b ++ (written w.segments ++ rest))

/-- The words of such a line are what it is read as. -/
theorem Line.tokensFrom {words : List Word} {line : List Char} (h : Line words line) :
    Redis.tokensFrom none [] false line = words.map Word.content := by
  induction h with
  | blank hb =>
    have hskipped := tokensFrom_blanks hb []
    rw [List.append_nil] at hskipped
    rw [hskipped]
    rfl
  | unclosed hb segments q t free =>
    rw [tokensFrom_blanks hb, tokensFrom_unclosed segments free, List.map_singleton,
      Word.content_ending]
  | word hb w hrest hdivided ih =>
    rw [tokensFrom_blanks hb, w.tokensFrom hdivided, ih, List.map_cons]

/-- A text that begins with segments, up to a blank or its end, or up to a quote that does not
    close. -/
def IsCut (s : List Char) : Prop :=
  ∃ segments, (∃ rest, s = written segments ++ rest ∧ ∀ c ∈ rest.head?, isBlank c = true) ∨
    ∃ q t, s = written segments ++ Quote.mark q :: t ∧ q.mark ∉ t

theorem IsCut.cons (x : Segment) {s : List Char} (h : IsCut s) : IsCut (x.written ++ s) := by
  have hwritten : ∀ segments r, x.written ++ (written segments ++ r) =
      written (x :: segments) ++ r := fun segments r => (List.append_assoc _ _ r).symm
  obtain ⟨segments, ⟨rest, rfl, hdivided⟩ | ⟨q, t, rfl, free⟩⟩ := h
  · exact ⟨x :: segments, Or.inl ⟨rest, hwritten segments rest, hdivided⟩⟩
  · exact ⟨x :: segments, Or.inr ⟨q, t, hwritten segments _, free⟩⟩

/-- Every text can be cut so. -/
theorem isCut (s : List Char) : IsCut s := by
  induction hn : s.length using Nat.strongRecOn generalizing s with
  | ind n ih =>
    subst hn
    cases s with
    | nil => exact ⟨[], Or.inl ⟨[], rfl, nofun⟩⟩
    | cons c r =>
      have hquoted : ∀ q : Quote, c = q.mark → IsCut (c :: r) := by
        rintro q rfl
        by_cases hmem : q.mark ∈ r
        · obtain ⟨t, rest, rfl, free⟩ := List.eq_append_cons_of_mem hmem
          have hcut := (ih rest.length (by simp; omega) rest rfl).cons (.quoted q t free)
          rwa [Segment.written, List.cons_append, List.append_assoc, List.singleton_append] at hcut
        · exact ⟨[], Or.inr ⟨q, r, rfl, hmem⟩⟩
      by_cases hdouble : c = '"'
      · exact hquoted .double hdouble
      by_cases hsingle : c = '\''
      · exact hquoted .single hsingle
      cases hblank : isBlank c with
      | true => exact ⟨[], Or.inl ⟨c :: r, rfl, fun d hd => Option.some.inj hd ▸ hblank⟩⟩
      | false =>
        have hplain : ∀ d ∈ [c], IsPlain d := fun d hd =>
          List.mem_singleton.mp hd ▸ ⟨hblank, hdouble, hsingle⟩
        have hcut := ih r.length (Nat.lt_succ_self _) r rfl
        exact hcut.cons (.plain [c] (List.cons_ne_nil _ _) hplain)

theorem Word.written_ne_nil (w : Word) : written w.segments ≠ [] := by
  obtain ⟨segments, filled⟩ := w
  obtain ⟨x, segments, rfl⟩ := List.exists_cons_of_ne_nil filled
  refine List.append_ne_nil_of_left_ne_nil ?_ _
  cases x with
  | plain text hne isPlain => exact hne
  | quoted q text free => exact List.cons_ne_nil _ _

/-- The blanks at the beginning of a text, and what is behind them. -/
theorem exists_blanks (s : List Char) :
    ∃ b r, s = b ++ r ∧ Blanks b ∧ ∀ c ∈ r.head?, isBlank c = false := by
  refine ⟨s.takeWhile isBlank, s.dropWhile isBlank, List.takeWhile_append_dropWhile.symm,
    List.all_eq_true.mp List.all_takeWhile, fun c hc => ?_⟩
  have hsolid := List.head?_dropWhile_not isBlank s
  rwa [Option.mem_def.mp hc] at hsolid

/-- Every line consists of words. -/
theorem exists_line (s : List Char) : ∃ words, Line words s := by
  induction hn : s.length using Nat.strongRecOn generalizing s with
  | ind n ih =>
    subst hn
    obtain ⟨b, r, rfl, hb, hsolid⟩ := exists_blanks s
    obtain ⟨segments, ⟨rest, rfl, hdivided⟩ | ⟨q, t, rfl, free⟩⟩ := isCut r
    · by_cases filled : segments = []
      · subst filled
        have hnone : rest = [] := by
          cases rest with
          | nil => rfl
          | cons c r => cases (hsolid c rfl).symm.trans (hdivided c rfl)
        subst hnone
        exact ⟨[], .blank (by rwa [written, List.flatMap_nil, List.append_nil, List.append_nil])⟩
      · have hpos : 0 < (written segments).length :=
          List.length_pos_iff.mpr (Word.written_ne_nil ⟨segments, filled⟩)
        have hshorter : rest.length < (b ++ (written segments ++ rest)).length := by
          rw [List.length_append, List.length_append]
          omega
        obtain ⟨words, hwords⟩ := ih rest.length hshorter rest rfl
        exact ⟨⟨segments, filled⟩ :: words, .word hb ⟨segments, filled⟩ hwords hdivided⟩
    · exact ⟨_, .unclosed hb segments q t free⟩

/-- A kind of quotes in which a character can stand. -/
def Quote.around (c : Char) : Quote := if c = '"' then .single else .double

theorem Quote.mark_around (c : Char) : (around c).mark ∉ [c] := by
  rw [List.mem_singleton, around]
  split
  · next hc =>
    rw [hc]
    decide
  · next hc => exact fun heq => hc heq.symm

/-- A word that stands for a text: each character is quoted alone. -/
def Word.of (t : List Char) : Word where
  segments := .quoted .double [] List.not_mem_nil ::
    t.map fun c => .quoted (.around c) [c] (Quote.mark_around c)
  filled := List.cons_ne_nil _ _

theorem Word.content_of (t : List Char) : (Word.of t).content = t := by
  show [] ++ (t.map fun c => Segment.quoted (.around c) [c] (Quote.mark_around c)).flatMap
    Segment.content = t
  rw [List.nil_append, List.flatMap_map]
  exact List.flatMap_singleton' t

/-- Every list of texts has a line, which begins with a blank if there are any. -/
theorem exists_written (tokens : List (List Char)) : ∃ words line, Line words line ∧
    (∀ c ∈ line.head?, isBlank c = true) ∧ words.map Word.content = tokens := by
  induction tokens with
  | nil => exact ⟨[], [], .blank Blanks.nil, nofun, rfl⟩
  | cons t tokens ih =>
    obtain ⟨words, line, hline, hdivided, rfl⟩ := ih
    have hspace : Blanks [' '] := by decide
    refine ⟨Word.of t :: words, _, .word hspace (Word.of t) hline hdivided, ?_, ?_⟩
    · exact fun c hc => Option.some.inj hc ▸ rfl
    · rw [List.map_cons, Word.content_of]

/-- The words of a line are the words that the line consists of; and every list of words has a
    line. -/
theorem tokenize_exact :
    (∀ (line : String) (tokens : List String), tokenize line = tokens ↔
      ∃ words, Line words line.toList ∧ tokens = words.map fun w => String.ofList w.content) ∧
    ∀ tokens : List String, ∃ line, tokenize line = tokens := by
  have hread : ∀ (line : String) (words : List Word), Line words line.toList →
      tokenize line = words.map fun w => String.ofList w.content := by
    intro line words h
    rw [tokenize, h.tokensFrom, List.map_map]
    rfl
  refine ⟨fun line tokens => ⟨?_, ?_⟩, fun tokens => ?_⟩
  · rintro rfl
    obtain ⟨words, h⟩ := exists_line line.toList
    exact ⟨words, h, hread line words h⟩
  · rintro ⟨words, h, rfl⟩
    exact hread line words h
  · obtain ⟨words, line, h, -, hwords⟩ := exists_written (tokens.map String.toList)
    refine ⟨String.ofList line, ?_⟩
    have hcontents := congrArg (List.map String.ofList) hwords
    rw [List.map_map, List.map_map] at hcontents
    rw [hread _ words (by rwa [String.toList_ofList])]
    refine hcontents.trans ?_
    simp [Function.comp_def]

end Polyshell.Redis
