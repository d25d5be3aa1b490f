/-
  Arrays of one element.

  The rewriting goes over the brackets and blanks of `[t]` and leaves them where they are, so what
  `[t]` is read as depends on what `t` is turned into between them (`rewritten_brackets`).  Where
  that is the strict text of a value, it is the only element exactly if the blanks around it are
  blanks of JSON (`ofText_singleton_iff`): the rewriting knows all blanks of Unicode, the reader
  only four.
-/
import Polyshell.Proofs.Json.Consumed
import Polyshell.Proofs.Mongo.Numerals

namespace Polyshell.Mongo

open Polyshell.Text
open Polyshell.Json (Spaces isSpace isNumeralChar skipSpace readValue Strict EndsNumber)

/-! ## Blanks at the ends -/

/-- Only blanks are cut off the end. -/
theorem exists_trimEnd (t : List Char) : ∃ w, Blanks w ∧ t = trimEnd t ++ w := by
  refine ⟨(t.reverse.takeWhile isBlank).reverse,
    fun c hc => List.mem_takeWhile_imp (List.mem_reverse.mp hc), ?_⟩
  rw [trimEnd, ← List.reverse_append, List.takeWhile_append_dropWhile, List.reverse_reverse]

/-- A text is its trimmed form with blanks around it. -/
theorem exists_trim (t : List Char) : ∃ w w', Blanks w ∧ Blanks w' ∧ t = w ++ (trim t ++ w') := by
  obtain ⟨w', hw', hend⟩ := exists_trimEnd (trimStart t)
  refine ⟨t.takeWhile isBlank, w', fun c hc => List.mem_takeWhile_imp hc, hw', ?_⟩
  rw [trim, ← hend]
  exact List.takeWhile_append_dropWhile.symm

/-- What is left of a text without the blanks around it is solid. -/
theorem solid_trim {t : List Char} (h : trim t ≠ []) : Solid (trim t) := by
  have hhead : ∀ c ∈ (trim t).head?, isBlank c = false := by
    intro c hc
    have hprefix : trim t <+: trimStart t := by
      rw [trim, trimEnd, ← List.reverse_suffix, List.reverse_reverse]
      exact List.dropWhile_suffix _
    obtain ⟨r, hr⟩ := hprefix
    have hsolid := List.head?_dropWhile_not isBlank t
    rw [← trimStart, ← hr, List.head?_append_of_ne_nil _ h, Option.mem_def.mp hc] at hsolid
    simpa using hsolid
  have hlast : ∀ c ∈ (trim t).getLast?, isBlank c = false := by
    intro c hc
    have hsolid := List.head?_dropWhile_not isBlank (trimStart t).reverse
    rw [trim, trimEnd, List.getLast?_reverse] at hc
    rw [Option.mem_def.mp hc] at hsolid
    simpa using hsolid
  obtain ⟨c, r, hc⟩ := List.exists_cons_of_ne_nil h
  exact ⟨⟨c, r, hc, hhead c (by rw [hc]; rfl)⟩, ⟨_, _, (List.dropLast_concat_getLast h).symm,
    hlast _ (List.getLast?_eq_getLast_of_ne_nil h)⟩⟩

/-- Words end in front of blanks, and in front of a bracket behind them. -/
theorem EndsWord.of_blanks {w : List Char} (hw : Blanks w) {c : Char} (hc : isWordChar c = false)
    (r : List Char) : EndsWord (w ++ c :: r) := by
  intro d s hd
  cases w with
  | nil =>
    obtain ⟨rfl, -⟩ := List.cons.inj hd
    exact hc
  | cons e w =>
    obtain ⟨rfl, -⟩ := List.cons.inj hd
    exact (isBlank_other (hw e List.mem_cons_self)).2.2.2

/-! ## Rewriting -/

section Rewriting

variable (ambient : Ambient) {w w' : List Char}

/-- What stands between brackets is rewritten there. -/
theorem rewritten_brackets (hw : Blanks w) {t s : List Char} (ht : Inside t s)
    (hlast : ∀ out, lastSolid? (s.reverse ++ out) ≠ some ',') (hw' : Blanks w') :
    rewritten ambient [] ('[' :: ((w ++ (t ++ w')) ++ [']'])) =
      .ok ('[' :: (w ++ (s ++ (w' ++ [']'])))) := by
  have hkey : ¬ OpensKey (w.reverse ++ ['[']) := by
    rw [OpensKey, lastSolid?_blanks hw]
    decide
  have hends : EndsWord (w' ++ [']']) := EndsWord.of_blanks hw' (by decide) []
  have hcomma : lastSolid? (w'.reverse ++ (s.reverse ++ (w.reverse ++ ['[']))) ≠ some ',' := by
    rw [lastSolid?_blanks hw']
    exact hlast _
  rw [rewritten_open ambient [] (Or.inl rfl), List.append_assoc, List.append_assoc,
    rewritten_blanks ambient hw, ht ambient _ _ hkey hends, rewritten_blanks ambient hw',
    rewritten_close ambient _ (Or.inr rfl), withoutComma_of_solid hcomma, rewritten_nil]
  simp

/-- A text in brackets is read as its strict form is. -/
theorem ofText_brackets_iff {m z : List Char}
    (h : rewritten ambient [] ('[' :: (m ++ [']'])) = .ok z) (vs : List Json) :
    Argument.ofText ambient ('[' :: (m ++ [']'])) = .ok (.array vs) ↔
      Json.read z = .ok (.arr vs) := by
  have hsolid : Solid ('[' :: (m ++ [']'])) := Solid.of_ends (by decide) (by decide) m
  have hstrict : strictText ambient ('[' :: (m ++ [']'])) = .ok z := by
    rw [rewritten] at h
    rw [strictText, h]
  rw [Argument.ofText, hsolid.trim, ofTrimmed_of_bracket ambient (Or.inl rfl), Argument.ofLiteral,
    hstrict]
  cases hread : Json.read z with
  | error f => simp only [hread, reduceCtorEq]
  | ok v =>
    simp only [hread]
    refine ⟨fun he => ?_, fun he => by cases he; rfl⟩
    cases v <;> cases he
    rfl

end Rewriting

/-! ## Reading -/

/-- No value begins with a blank that is none of JSON. -/
theorem spaces_of_readValue {d : Nat} {w s : List Char} {c : Char} (hw : Blanks w)
    {x : Json × List Char} (h : readValue d (w ++ c :: s) = .ok x) : Spaces w := by
  induction w with
  | nil => exact Json.Spaces.nil
  | cons b w ih =>
    have hb := hw b List.mem_cons_self
    have hrest : Blanks w := fun e he => hw e (List.mem_cons_of_mem b he)
    by_cases hspace : isSpace b = true
    · have hskip : readValue d (b :: (w ++ c :: s)) = readValue d (w ++ c :: s) := by
        refine Json.readValue_skipSpace d ?_
        rw [skipSpace, List.dropWhile_cons, if_pos hspace]
        rfl
      rw [List.cons_append, hskip] at h
      exact List.forall_mem_cons.mpr ⟨hspace, ih hrest h⟩
    · rw [Bool.not_eq_true] at hspace
      rw [List.cons_append] at h
      -- none of the characters that values begin with is blank
      have hhead : isBlank b = false := by
        rcases Json.head_of_readValue hspace h with hmem | hdigit
        · have hall : ∀ x ∈ ['n', 't', 'f', '-', '"', '[', '\x7b'], (!isBlank x) = true :=
            List.all_eq_true.mp (by decide)
          exact (Bool.not_eq_true' _).mp (hall b hmem)
        · exact not_isBlank_of_isNumeralChar (Json.isNumeralChar_of_isDigit hdigit)
      rw [hb] at hhead
      cases hhead

/-- The reader finds a bracket only behind blanks of JSON. -/
theorem spaces_of_skipSpace {w r r' : List Char} (hw : Blanks w)
    (h : skipSpace (w ++ ']' :: r) = ']' :: r') : Spaces w := by
  induction w with
  | nil => exact Json.Spaces.nil
  | cons b w ih =>
    by_cases hspace : isSpace b = true
    · rw [List.cons_append, skipSpace, List.dropWhile_cons, if_pos hspace] at h
      exact List.forall_mem_cons.mpr
        ⟨hspace, ih (fun e he => hw e (List.mem_cons_of_mem b he)) h⟩
    · rw [Bool.not_eq_true] at hspace
      rw [List.cons_append, Json.skipSpace_of_solid hspace] at h
      exact absurd (List.cons.inj h).1 (ne_of_isBlank (hw b List.mem_cons_self) (by decide))

/-- The element of an array is read behind its blanks. -/
theorem readValue_of_singleton {w s r : List Char} {c : Char} (hw : Blanks w)
    (hc : isSpace c = false) {v : Json}
    (h : Json.read ('[' :: (w ++ (c :: s ++ r))) = .ok (.arr [v])) :
    Spaces w ∧ ∃ rest rest', readValue 126 (c :: s ++ r) = .ok (v, rest) ∧
      skipSpace rest = ']' :: rest' := by
  obtain ⟨rest, rest', hread, hclose⟩ := Json.read_singleton h
  have hspaces := spaces_of_readValue hw hread
  have hskip : readValue 126 (w ++ (c :: s ++ r)) = readValue 126 (c :: s ++ r) := by
    refine Json.readValue_skipSpace 126 ?_
    rw [List.cons_append, Json.skipSpace_append hspaces hc, Json.skipSpace_of_solid hc]
  exact ⟨hspaces, rest, rest', by rw [← hskip, hread], hclose⟩

/-- Numbers end in front of blanks, and in front of the bracket behind them. -/
theorem endsNumber_blanks {w : List Char} (hw : Blanks w) : EndsNumber (w ++ [']']) := by
  intro c r he
  cases w with
  | nil =>
    obtain ⟨rfl, -⟩ := List.cons.inj he
    decide
  | cons d w =>
    obtain ⟨rfl, -⟩ := List.cons.inj he
    cases hn : isNumeralChar d with
    | false => rfl
    | true =>
      have hd := hw d List.mem_cons_self
      rw [not_isBlank_of_isNumeralChar hn] at hd
      cases hd

section Strict

variable {v v' : Json} {s w₀ w w' : List Char} (hs : Strict 126 (.value v) s) (hw₀ : Spaces w₀)
  (hw : Blanks w) (hw' : Blanks w')
include hs hw₀ hw hw'

/-- A strict value is the only element exactly between blanks of JSON. -/
theorem read_singleton_iff :
    Json.read ('[' :: (w ++ (s ++ (w₀ ++ (w' ++ [']']))))) = .ok (.arr [v']) ↔
      Spaces w ∧ Spaces w' ∧ v' = v := by
  have hends : EndsNumber (w₀ ++ (w' ++ [']'])) := EndsNumber.of_spaces hw₀ (endsNumber_blanks hw')
  constructor
  · intro h
    obtain ⟨c, s', hcons, hc, -, -⟩ := hs.head
    have haccepted := hs.accepted _ hends
    rw [hcons] at h haccepted
    obtain ⟨hspaces, rest, rest', hread, hclose⟩ := readValue_of_singleton hw hc h
    rw [haccepted] at hread
    cases hread
    rw [← List.append_assoc] at hclose
    have hbehind : Blanks (w₀ ++ w') := fun d hd =>
      (List.mem_append.mp hd).elim (fun hd => isBlank_of_isSpace (hw₀ d hd)) (hw' d)
    have hall := spaces_of_skipSpace hbehind hclose
    exact ⟨hspaces, fun d hd => hall d (List.mem_append_right w₀ hd), rfl⟩
  · rintro ⟨hspaces, hspaces', rfl⟩
    have hbehind : Spaces (w₀ ++ w') := fun d hd =>
      (List.mem_append.mp hd).elim (hw₀ d) (hspaces' d)
    have hread := (Strict.arr (.lastItem hspaces hs hbehind)).readWithin
    simp only [List.append_assoc] at hread
    exact hread

/-- A text that becomes a strict value is the only element exactly between blanks of JSON. -/
theorem ofText_singleton_iff (ambient : Ambient) {t : List Char} (ht : Inside t (s ++ w₀)) :
    Argument.ofText ambient ('[' :: ((w ++ (t ++ w')) ++ [']'])) = .ok (.array [v']) ↔
      Spaces w ∧ Spaces w' ∧ v' = v := by
  have hlast : ∀ out, lastSolid? ((s ++ w₀).reverse ++ out) ≠ some ',' := by
    intro out
    rw [List.reverse_append, List.append_assoc, lastSolid?_spaces hw₀]
    exact lastSolid?_of_strict hs out
  have hrewritten := rewritten_brackets ambient hw ht hlast hw'
  rw [List.append_assoc s] at hrewritten
  rw [ofText_brackets_iff ambient hrewritten, read_singleton_iff hs hw₀ hw hw']

end Strict

end Polyshell.Mongo
