/-
  Which spellings of `USE` are recognised.

  1. **Names** — a name stands by itself or between backquotes, with its own backquotes doubled.  The
     reader takes off all backquotes at both ends and doubles none back, so what it gets from a quoted
     name is the name if and only if there is no backquote in it (`strip_quoted_iff`).

  2. **The statement** — `UseText` is the statement with its blanks and its semicolon.  What is left of it
     without the ends is the keyword, the gap and the written name (`UseText.cleaned`).

  3. **The two readers** — the kind of a statement is that of its first word, which a backquote does not
     end; the name stands behind the first blank.  So both find what they look for if and only if there is
     a gap, and the name is the right one if and only if it has no backquote (`use_recognised_iff`).
-/
import Polyshell.Proofs.Mongo.Coercion
import Polyshell.Sql.Statement

namespace Polyshell.Sql

open Polyshell.Text
open Polyshell.Mongo (Blanks Solid isAlphanum_of_toLower toNat_of_isAlphanum not_isBlank_of_isAlphanum)

/-! ## Cutting characters off the ends -/

theorem dropTrailing_concat_self (c : Char) (s : List Char) :
    dropTrailing c (s ++ [c]) = dropTrailing c s := by
  simp [dropTrailing]

theorem dropTrailing_concat_of_ne {c d : Char} (h : d ≠ c) (s : List Char) :
    dropTrailing c (s ++ [d]) = s ++ [d] := by
  simp [dropTrailing, h]

theorem dropWhile_of_not_mem {c : Char} {s : List Char} (h : c ∉ s) :
    s.dropWhile (· == c) = s := by
  cases s with
  | nil => rfl
  | cons d r =>
    have hd : d ≠ c := fun he => h (he ▸ List.mem_cons_self)
    rw [List.dropWhile_cons, if_neg (by simpa using hd)]

/-- A text without the character keeps both ends. -/
theorem strip_of_not_mem {c : Char} {s : List Char} (h : c ∉ s) : strip c s = s := by
  rw [strip, dropWhile_of_not_mem h, dropTrailing, dropWhile_of_not_mem (mt List.mem_reverse.mp h),
    List.reverse_reverse]

/-- What is left does not end in the character that was cut off. -/
theorem getLast?_dropTrailing (c : Char) (s : List Char) : (dropTrailing c s).getLast? ≠ some c := by
  rw [dropTrailing, List.getLast?_reverse]
  intro h
  have hnot := List.head?_dropWhile_not (· == c) s.reverse
  rw [h] at hnot
  simp at hnot

/-- And it is what the text begins with. -/
theorem dropTrailing_prefix (c : Char) (s : List Char) : dropTrailing c s <+: s := by
  rw [← List.reverse_suffix, dropTrailing, List.reverse_reverse]
  exact List.dropWhile_suffix _

/-! ## Names -/

/-- A name between backquotes has each backquote of its own doubled. -/
def doubled (n : List Char) : List Char := n.flatMap fun c => if c = '`' then ['`', '`'] else [c]

/-- A character that can stand in a name without quotes. -/
def IsBare (c : Char) : Prop := isBlank c = false ∧ c ∉ ['\'', '"', '`', ';', '(', ')']

theorem doubled_cons_of_ne {c : Char} (h : c ≠ '`') (r : List Char) :
    doubled (c :: r) = c :: doubled r := by
  rw [doubled, List.flatMap_cons, if_neg h]
  rfl

theorem doubled_concat_of_ne {c : Char} (h : c ≠ '`') (l : List Char) :
    doubled (l ++ [c]) = doubled l ++ [c] := by
  rw [doubled, List.flatMap_append, List.flatMap_singleton, if_neg h]
  rfl

theorem length_doubled (n : List Char) : (doubled n).length = n.length + n.count '`' := by
  induction n with
  | nil => rfl
  | cons c r ih =>
    by_cases hc : c = '`'
    · subst hc
      rw [List.count_cons_self, List.length_cons, doubled, List.flatMap_cons, if_pos rfl,
        List.length_append, ← doubled, ih]
      simp only [List.length_cons, List.length_nil]
      omega
    · rw [doubled_cons_of_ne hc, List.count_cons_of_ne hc, List.length_cons, List.length_cons, ih]
      omega

theorem doubled_of_not_mem {n : List Char} (h : '`' ∉ n) : doubled n = n := by
  induction n with
  | nil => rfl
  | cons c r ih =>
    obtain ⟨hc, hr⟩ := not_or.mp (mt List.mem_cons.mpr h)
    rw [doubled_cons_of_ne (Ne.symm hc), ih hr]

/-- Without the backquotes at its ends, a quoted name is the name exactly if that has none. -/
theorem strip_quoted_iff {n : List Char} (hne : n ≠ []) :
    strip '`' ('`' :: (doubled n ++ ['`'])) = n ↔ '`' ∉ n := by
  -- a first character that is no backquote stays, and so does a last one
  have hstay : ∀ c r l d, n = c :: r → n = l ++ [d] → c ≠ '`' → d ≠ '`' →
      strip '`' ('`' :: (doubled n ++ ['`'])) = doubled n := by
    intro c r l d hfirst hlast hc hd
    have hcons : doubled n = c :: doubled r := by rw [hfirst, doubled_cons_of_ne hc]
    rw [strip, List.dropWhile_cons, if_pos (by decide), hcons, List.cons_append, List.dropWhile_cons,
      if_neg (by simpa using hc), ← List.cons_append, ← hcons, dropTrailing_concat_self, hlast,
      doubled_concat_of_ne hd, dropTrailing_concat_of_ne hd]
  obtain ⟨c, r, hfirst⟩ := List.exists_cons_of_ne_nil hne
  have hlast := (List.dropLast_concat_getLast hne).symm
  constructor
  · intro hstrip
    have hd : n.getLast hne ≠ '`' := by
      intro he
      refine getLast?_dropTrailing '`' (('`' :: (doubled n ++ ['`'])).dropWhile (· == '`')) ?_
      rw [← strip, hstrip, List.getLast?_eq_some_getLast hne, he]
    have hc : c ≠ '`' := by
      rintro rfl
      obtain ⟨behind, hprefix⟩ :=
        dropTrailing_prefix '`' (('`' :: (doubled n ++ ['`'])).dropWhile (· == '`'))
      have hnot := List.head?_dropWhile_not (· == '`') ('`' :: (doubled n ++ ['`']))
      rw [← hprefix, ← strip, hstrip, hfirst] at hnot
      simp at hnot
    have hlength := length_doubled n
    rw [← hstay _ _ _ _ hfirst hlast hc hd, hstrip] at hlength
    exact List.count_eq_zero.mp (by omega)
  · intro hnone
    have hc : c ≠ '`' := fun he => hnone (by rw [hfirst, he]; exact List.mem_cons_self)
    have hd : n.getLast hne ≠ '`' := fun he => hnone (he ▸ List.getLast_mem hne)
    rw [hstay _ _ _ _ hfirst hlast hc hd, doubled_of_not_mem hnone]

/-- How a name may be written behind the keyword and a gap. -/
inductive WrittenName (n : List Char) : (gap written : List Char) → Prop
  /-- By itself, with something in front of it. -/
  | bare {gap : List Char} (hgap : gap ≠ []) (h : ∀ c ∈ n, IsBare c) : WrittenName n gap n
  /-- Between backquotes. -/
  | quoted {gap : List Char} : WrittenName n gap ('`' :: (doubled n ++ ['`']))

namespace WrittenName

variable {n gap written : List Char} (h : WrittenName n gap written) (hne : n ≠ [])
include h hne

theorem solid : Solid written := by
  cases h with
  | bare _ hbare => exact .of_all hne fun c hc => (hbare c hc).1
  | quoted => exact .of_ends (by decide) (by decide) _

/-- The semicolon behind a name is not part of it. -/
theorem last_ne_semicolon : ∃ l d, written = l ++ [d] ∧ d ≠ ';' := by
  cases h with
  | bare _ hbare =>
    refine ⟨_, _, (List.dropLast_concat_getLast hne).symm, ?_⟩
    intro he
    exact (hbare _ (List.getLast_mem hne)).2 (by rw [he]; decide)
  | quoted => exact ⟨'`' :: doubled n, '`', rfl, by decide⟩

/-- What the reader gets is the name exactly if there is no backquote in it. -/
theorem strip_iff : strip '`' written = n ↔ '`' ∉ n := by
  cases h with
  | bare _ hbare =>
    have hnone : '`' ∉ n := fun hmem => (hbare _ hmem).2 (by decide)
    exact ⟨fun _ => hnone, fun _ => strip_of_not_mem hnone⟩
  | quoted => exact strip_quoted_iff hne

end WrittenName

/-! ## The statement -/

/-- A statement that switches to the database `n`, with `gap` behind its keyword: the keyword in any
    case, a name, a semicolon or none, and blanks around them. -/
def UseText (sql : String) (n gap : List Char) : Prop :=
  ∃ before keyword written between semicolon behind : List Char,
    sql.toList = before ++ (keyword ++ (gap ++ (written ++ (between ++ (semicolon ++ behind))))) ∧
      keyword.map Char.toLower = "use".toList ∧ WrittenName n gap written ∧
      (semicolon = [] ∨ semicolon = [';']) ∧
      Blanks before ∧ Blanks gap ∧ Blanks between ∧ Blanks behind

section Keyword

variable {keyword : List Char} (h : keyword.map Char.toLower = "use".toList)
include h

/-- The letters of the keyword end no word. -/
theorem keyword_inside : ∀ c ∈ keyword, isBlank c = false ∧ c ≠ ';' ∧ c ≠ '(' := by
  intro c hc
  have halnum := isAlphanum_of_toLower h (by decide) c hc
  have hrange := toNat_of_isAlphanum halnum
  refine ⟨not_isBlank_of_isAlphanum halnum, ?_, ?_⟩
  · rintro rfl
    exact absurd hrange (by decide)
  · rintro rfl
    exact absurd hrange (by decide)

theorem solid_keyword : Solid keyword := by
  refine .of_all ?_ fun c hc => (keyword_inside h c hc).1
  rintro rfl
  exact absurd h (by decide)

/-- What stands behind the first blank is cut off from the keyword. -/
theorem cutBlank_keyword {b : Char} (hb : isBlank b = true) (r : List Char) :
    cutBlank (keyword ++ b :: r) = some (keyword, r) := by
  have hsolid := fun c hc => (keyword_inside h c hc).1
  clear h
  induction keyword with
  | nil => rw [List.nil_append, cutBlank, if_pos hb]
  | cons c k ih =>
    rw [List.cons_append, cutBlank, hsolid c List.mem_cons_self, if_neg Bool.false_ne_true,
      ih fun d hd => hsolid d (List.mem_cons_of_mem c hd)]
    rfl

end Keyword

/-- The statement from its keyword to its name, and what both readers see of it: the one with the blanks
    cut off the ends, the other with the semicolon as well. -/
theorem UseText.cleaned {sql : String} {n gap : List Char} (h : UseText sql n gap) (hne : n ≠ []) :
    ∃ keyword written tail, keyword.map Char.toLower = "use".toList ∧ WrittenName n gap written ∧
      Blanks gap ∧ trim sql.toList = keyword ++ (gap ++ (written ++ tail)) ∧
      trim (dropTrailing ';' (trim sql.toList)) = keyword ++ (gap ++ written) := by
  obtain ⟨before, keyword, written, between, semicolon, behind, hsql, hkeyword, hwritten, hsemicolon,
    hbefore, hgap, hbetween, hbehind⟩ := h
  have hsolid : Solid (keyword ++ (gap ++ written)) :=
    (solid_keyword hkeyword).append gap (hwritten.solid hne)
  obtain ⟨l, d, hl, hd⟩ := hwritten.last_ne_semicolon hne
  have hcore : keyword ++ (gap ++ written) = (keyword ++ (gap ++ l)) ++ [d] := by
    rw [hl, List.append_assoc, List.append_assoc]
  have hkept : dropTrailing ';' (keyword ++ (gap ++ written)) = keyword ++ (gap ++ written) := by
    rw [hcore, dropTrailing_concat_of_ne hd]
  refine ⟨keyword, written, ?_⟩
  rcases hsemicolon with rfl | rfl
  · refine ⟨[], hkeyword, hwritten, hgap, ?_⟩
    have hend : Blanks (between ++ behind) := fun c hc =>
      (List.mem_append.mp hc).elim (hbetween c) (hbehind c)
    have hassoc : sql.toList =
        before ++ ((keyword ++ (gap ++ written)) ++ (between ++ behind)) := by
      rw [hsql]
      simp only [List.append_assoc, List.nil_append]
    rw [hassoc, hsolid.trim_padded hbefore hend, List.append_nil]
    exact ⟨rfl, by rw [hkept, hsolid.trim]⟩
  · refine ⟨between ++ [';'], hkeyword, hwritten, hgap, ?_⟩
    have hclosed : Solid ((keyword ++ (gap ++ written)) ++ (between ++ [';'])) :=
      hsolid.append between (.of_word (by decide) (by decide))
    have hassoc : sql.toList =
        before ++ (((keyword ++ (gap ++ written)) ++ (between ++ [';'])) ++ behind) := by
      rw [hsql]
      simp only [List.append_assoc]
    rw [hassoc, hclosed.trim_padded hbefore hbehind]
    refine ⟨by simp only [List.append_assoc], ?_⟩
    rw [← List.append_assoc, dropTrailing_concat_self]
    -- behind the name there are only blanks any more, and none of them is a semicolon
    have hopen : dropTrailing ';' ((keyword ++ (gap ++ written)) ++ between) =
        (keyword ++ (gap ++ written)) ++ between := by
      rcases List.eq_nil_or_concat between with rfl | ⟨w, b, rfl⟩
      · rw [List.append_nil, hkept]
      · have hb : b ≠ ';' := Mongo.ne_of_isBlank
          (hbetween b (by rw [List.concat_eq_append]; exact List.mem_append_right _ List.mem_cons_self))
          (by decide)
        rw [List.concat_eq_append, ← List.append_assoc, dropTrailing_concat_of_ne hb]
    have hpadded := hsolid.trim_padded Blanks.nil hbetween
    rw [List.nil_append] at hpadded
    rw [hopen, hpadded]

/-! ## The two readers -/

/-- Only the three letters of the keyword make a statement a `USE`. -/
theorem length_of_use {word : List Char} (h : kindOfWord (asciiLower word) = .use) :
    word.length = 3 := by
  have huse : asciiLower word = "use" := by
    unfold kindOfWord at h
    grind
  have hlist := congrArg String.toList huse
  rw [asciiLower, String.toList_ofList] at hlist
  rw [← List.length_map Char.toLower, hlist]
  rfl

section Readers

variable {sql : String} {n gap : List Char} (h : UseText sql n gap) (hne : n ≠ [])
include h hne

/-- The statement is of the right kind exactly if something stands between the keyword and the name. -/
theorem UseText.classify_iff : classify sql = .use ↔ gap ≠ [] := by
  obtain ⟨keyword, written, tail, hkeyword, hwritten, hgap, htrim, -⟩ := h.cleaned hne
  have hinside : ∀ c ∈ keyword, (!(isBlank c || decide (c = ';') || decide (c = '('))) = true := by
    intro c hc
    obtain ⟨hblank, hsemicolon, hparen⟩ := keyword_inside hkeyword c hc
    simp [hblank, hsemicolon, hparen]
  rw [classify, firstWord, htrim, List.takeWhile_append_of_pos hinside]
  constructor
  · rintro hkind rfl
    -- the backquote is part of the first word
    have hlength := length_of_use hkind
    have hthree : keyword.length = 3 := by
      rw [← List.length_map Char.toLower, hkeyword]
      rfl
    cases hwritten with
    | bare hgap' => exact hgap' rfl
    | quoted =>
      rw [List.nil_append, List.cons_append, List.takeWhile_cons, if_pos (by decide),
        List.length_append, List.length_cons] at hlength
      omega
  · intro hfilled
    obtain ⟨b, w, rfl⟩ := List.exists_cons_of_ne_nil hfilled
    have hb : isBlank b = true := hgap b List.mem_cons_self
    rw [List.cons_append, List.takeWhile_cons, hb, if_neg (by simp), List.append_nil]
    have hword : asciiLower keyword = "use" := by rw [asciiLower, hkeyword, String.ofList_toList]
    rw [hword]
    rfl

/-- Behind a gap the reader finds the written name, and takes the backquotes off it. -/
theorem UseText.useTarget_iff (hfilled : gap ≠ []) :
    useTarget sql = some (String.ofList n) ↔ '`' ∉ n := by
  obtain ⟨keyword, written, tail, hkeyword, hwritten, hgap, -, hclean⟩ := h.cleaned hne
  obtain ⟨b, w, rfl⟩ := List.exists_cons_of_ne_nil hfilled
  have hb : isBlank b = true := hgap b List.mem_cons_self
  have hw : Blanks w := fun c hc => hgap c (List.mem_cons_of_mem b hc)
  have hword : asciiLower keyword = "use" := by rw [asciiLower, hkeyword, String.ofList_toList]
  have hpadded := (hwritten.solid hne).trim_padded hw Blanks.nil
  rw [List.append_nil] at hpadded
  rw [useTarget, hclean, List.cons_append, cutBlank_keyword hkeyword hb]
  simp only [hword, if_true, hpadded]
  rw [← hwritten.strip_iff hne]
  constructor
  · intro htarget
    split at htarget
    · cases htarget
    · exact String.ofList_injective (Option.some.inj htarget)
  · intro hstrip
    rw [hstrip, if_neg (by rw [List.isEmpty_iff]; exact hne)]

end Readers

/-- **Which spellings of `USE` are recognised.**  Of a statement that switches to the database `n`, the
    kind is `USE`, and both readers of the name give `n`, if and only if something stands between the
    keyword and the name and there is no backquote in the name. -/
theorem use_recognised_iff {sql : String} {n gap : List Char} (h : UseText sql n gap) (hne : n ≠ []) :
    (classify sql = .use ∧ useTarget sql = some (String.ofList n) ∧
      changedDatabase .use sql none = some (String.ofList n)) ↔ gap ≠ [] ∧ '`' ∉ n := by
  have hchanged : changedDatabase .use sql none = useTarget sql := by
    rw [changedDatabase, if_pos rfl, Option.orElse_eq_orElse, Option.orElse_eq_or, Option.none_or]
  rw [hchanged, and_self, h.classify_iff hne]
  constructor
  · rintro ⟨hgap, htarget⟩
    exact ⟨hgap, (h.useTarget_iff hne hgap).mp htarget⟩
  · rintro ⟨hgap, hnone⟩
    exact ⟨hgap, (h.useTarget_iff hne hgap).mpr hnone⟩

/-- A quoted name with a blank and a semicolon in it, and a semicolon behind it. -/
theorem use_recognised_iff_spaced : UseText " Use  `a; b` ;\n" "a; b".toList "  ".toList ∧
    classify " Use  `a; b` ;\n" = .use ∧ useTarget " Use  `a; b` ;\n" = some "a; b" ∧
      changedDatabase .use " Use  `a; b` ;\n" none = some "a; b" := by
  have htext : UseText " Use  `a; b` ;\n" "a; b".toList "  ".toList :=
    ⟨" ".toList, "Use".toList, "`a; b`".toList, " ".toList, [';'], "\n".toList, rfl, by decide, .quoted,
      Or.inr rfl, by decide, by decide, by decide, by decide⟩
  have hrecognised := (use_recognised_iff htext (by decide)).mpr ⟨by decide, by decide⟩
  rw [String.ofList_toList] at hrecognised
  exact ⟨htext, hrecognised⟩

/-- Two spellings that are missed: without a gap the statement is of another kind, and a doubled backquote
    stays doubled. -/
theorem use_missed :
    (UseText "USE`shop`" "shop".toList [] ∧ classify "USE`shop`" = .other ∧
      useTarget "USE`shop`" = none) ∧
    (UseText "USE `a``b`" "a`b".toList [' '] ∧ useTarget "USE `a``b`" = some "a``b") := by
  refine ⟨⟨⟨[], "USE".toList, "`shop`".toList, [], [], [], rfl, by decide, .quoted, Or.inl rfl, ?_⟩,
    by decide +kernel, by decide +kernel⟩,
    ⟨[], "USE".toList, "`a``b`".toList, [], [], [], rfl, by decide, .quoted, Or.inl rfl, ?_⟩,
    by decide +kernel⟩
  · exact ⟨by decide, by decide, by decide, by decide⟩
  · exact ⟨by decide, by decide, by decide, by decide⟩

end Polyshell.Sql
