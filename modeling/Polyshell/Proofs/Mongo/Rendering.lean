/-
  The texts that write a command.

  1. **Grammar** — `Separated`, `CallText`, `ChainText` and `CommandText` relate a command to the
     texts that write it: arguments joined by commas, calls joined by dots, any blanks around these,
     and a semicolon at the end or none.

  2. **Normal form** — what the normal form makes of a text does not depend on what follows
     (`CollapsesTo`), as long as the brackets of the text balance.

  3. **The crux** — the texts are closed under it: the normal form of a text of a command is again
     one, with its blanks shortened (`CommandText.normalized`).  So no later pass has to be told what
     became of the blanks.
-/
import Polyshell.Proofs.Mongo.Written

namespace Polyshell.Mongo

open Polyshell.Text

/-! ## Grammar -/

/-- One or more arguments, with commas between them. -/
inductive Separated : List Term → List Char → Prop
  | last {t : Term} (ht : t.Valid) : Separated [t] t.text
  | more {t : Term} {ts : List Term} {w w' s : List Char} (ht : t.Valid) (hw : Blanks w)
      (hw' : Blanks w') (h : Separated ts s) :
      Separated (t :: ts) (t.text ++ (w ++ ',' :: (w' ++ s)))

/-- A call as it is written. -/
structure WrittenCall where
  name : List Char
  args : List Term

/-- The call that is read. -/
def WrittenCall.call (c : WrittenCall) : Call := ⟨String.ofList c.name, c.args.map Term.argument⟩

/-- A name of a call. -/
def IsName (name : List Char) : Prop := name ≠ [] ∧ ∀ c ∈ name, isNameChar c = true

/-- One call. -/
inductive CallText : WrittenCall → List Char → Prop
  | noArgs {name : List Char} (hn : IsName name) : CallText ⟨name, []⟩ (name ++ '(' :: ([] ++ [')']))
  | args {name : List Char} {ts : List Term} {s : List Char} (hn : IsName name)
      (h : Separated ts s) : CallText ⟨name, ts⟩ (name ++ '(' :: (s ++ [')']))

/-- One or more calls, with dots between them. -/
inductive ChainText : List WrittenCall → List Char → Prop
  | last {c : WrittenCall} {t : List Char} (h : CallText c t) : ChainText [c] t
  | more {c : WrittenCall} {cs : List WrittenCall} {t w w' s : List Char} (h : CallText c t)
      (hw : Blanks w) (hw' : Blanks w') (hs : ChainText cs s) :
      ChainText (c :: cs) (t ++ (w ++ '.' :: (w' ++ s)))

/-- A name of a collection. -/
def IsCollection (name : List Char) : Prop :=
  name ≠ [] ∧ ∀ c ∈ name, Command.isCollectionChar c = true

/-- The calls on a collection. -/
inductive ExpressionText (collection : List Char) (calls : List WrittenCall) : List Char → Prop
  | mk {s : List Char} (hc : IsCollection collection) (h : ChainText calls s) :
      ExpressionText collection calls ("db.".toList ++ (collection ++ '.' :: s))

/-- The same with a semicolon, or without. -/
inductive CommandText (collection : List Char) (calls : List WrittenCall) : List Char → Prop
  | bare {t : List Char} (h : ExpressionText collection calls t) : CommandText collection calls t
  | semicolon {t : List Char} (h : ExpressionText collection calls t) :
      CommandText collection calls (t ++ [';'])

/-! ## The normal form -/

/-- What the normal form makes of blanks. -/
def squeezed (w : List Char) : List Char := if w.isEmpty then [] else [' ']

theorem Blanks.squeezed (w : List Char) : Blanks (squeezed w) := by
  rw [Mongo.squeezed]
  split
  · exact Blanks.nil
  · exact fun c hc => by rw [List.mem_singleton.mp hc]; decide

/-- A character that is not blank is kept. -/
theorem collapse_char {c : Char} (hc : isBlank c = false) (s : Scan) (r : List Char) :
    collapse s false (c :: r) = c :: collapse (s.next c) false r := by
  rw [collapse, hc, Bool.and_false, if_neg Bool.false_ne_true, if_neg Bool.false_ne_true]

/-- Blanks that were passed over leave one space in front of what is not blank. -/
theorem collapse_pending {c : Char} (hc : isBlank c = false) (s : Scan) (r : List Char) :
    collapse s true (c :: r) = ' ' :: collapse s false (c :: r) := by
  rw [collapse_char hc, collapse, hc, Bool.and_false, if_neg Bool.false_ne_true, if_pos rfl]

theorem collapse_blanks (d : Int) {w : List Char} (hw : Blanks w) {c : Char}
    (hc : isBlank c = false) (r : List Char) : collapse (Scan.at d) false (w ++ c :: r) =
      squeezed w ++ collapse (Scan.at d) false (c :: r) := by
  have hpending : ∀ w, Blanks w → collapse (Scan.at d) true (w ++ c :: r) =
      ' ' :: collapse (Scan.at d) false (c :: r) := by
    intro w
    induction w with
    | nil => exact fun _ => collapse_pending hc _ r
    | cons b w ih =>
      intro hw
      have hb := hw b List.mem_cons_self
      rw [List.cons_append, collapse, structural_blank hb, hb, if_pos (by rfl), next_blank hb]
      exact ih fun x hx => hw x (List.mem_cons_of_mem b hx)
  cases w with
  | nil => rfl
  | cons b w =>
    have hb := hw b List.mem_cons_self
    rw [List.cons_append, collapse, structural_blank hb, hb, if_pos (by rfl), next_blank hb,
      hpending w fun x hx => hw x (List.mem_cons_of_mem b hx)]
    rfl

/-- Whatever follows, `t` becomes `t'`, and the brackets of `t` balance. -/
def CollapsesTo (d : Int) (t t' : List Char) : Prop :=
  ∀ rest, collapse (Scan.at d) false (t ++ rest) = t' ++ collapse (Scan.at d) false rest

namespace CollapsesTo

variable {d : Int} {t t' : List Char}

theorem of_keeps (h : Keeps d (Scan.at d) t (Scan.at d)) : CollapsesTo d t t :=
  fun rest => collapse_keeps rest h

theorem append {s s' : List Char} (ht : CollapsesTo d t t') (hs : CollapsesTo d s s') :
    CollapsesTo d (t ++ s) (t' ++ s') := by
  intro rest
  rw [List.append_assoc, ht, hs, List.append_assoc]

/-- Blanks in front of something else are shortened. -/
theorem behind {w : List Char} (hw : Blanks w) (hsolid : Solid t) (h : CollapsesTo d t t') :
    CollapsesTo d (w ++ t) (squeezed w ++ t') := by
  intro rest
  obtain ⟨c, r, rfl, hc⟩ := hsolid.head
  rw [List.append_assoc, List.cons_append, collapse_blanks d hw hc, ← List.cons_append, h,
    List.append_assoc]

/-- A mark that leaves the scan as it was, with blanks in front of it. -/
theorem mark {w : List Char} (hw : Blanks w) {c : Char} (hc : isBlank c = false)
    (hnext : (Scan.at d).next c = Scan.at d) :
    CollapsesTo d (w ++ [c]) (squeezed w ++ [c]) := by
  have hsolid : Solid [c] := ⟨⟨c, [], rfl, hc⟩, [], c, rfl, hc⟩
  refine .behind hw hsolid fun rest => ?_
  rw [List.singleton_append, collapse_char hc, hnext, List.singleton_append]

/-- A separator, with the blanks around it shortened. -/
theorem separated {w w' : List Char} (hw : Blanks w) (hw' : Blanks w') {c : Char}
    (hc : isBlank c = false) (hnext : (Scan.at d).next c = Scan.at d) (hsolid : Solid t)
    (h : CollapsesTo d t t') :
    CollapsesTo d (w ++ c :: (w' ++ t)) (squeezed w ++ c :: (squeezed w' ++ t')) := by
  have hall := (mark hw hc hnext).append (behind hw' hsolid h)
  rw [List.append_assoc, List.append_assoc, List.singleton_append, List.singleton_append] at hall
  exact hall

/-- What is in parentheses is one deeper. -/
theorem parens (h : CollapsesTo (d + 1) t t') :
    CollapsesTo d ('(' :: (t ++ [')'])) ('(' :: (t' ++ [')'])) := by
  intro rest
  have hup : (Scan.at (d + 1)).next ')' = Scan.at d := by
    have hback : d + 1 - 1 = d := Int.add_sub_cancel d 1
    exact congrArg (Scan.mk none false) hback
  rw [List.cons_append, collapse_char (by decide), show (Scan.at d).next '(' = Scan.at (d + 1) from
    rfl, List.append_assoc, h, List.singleton_append, collapse_char (by decide), hup,
    List.cons_append, List.append_assoc, List.singleton_append]

end CollapsesTo

/-! ## The texts are closed under it -/

namespace Separated

variable {ts : List Term} {s : List Char}

theorem solid (h : Separated ts s) : Solid s := by
  induction h with
  | last ht => exact Term.solid ht
  | more ht hw hw' h ih => exact (Term.solid ht).separated _ _ _ ih

theorem collapsesTo (d : Int) (h : Separated ts s) : ∃ s', Separated ts s' ∧ CollapsesTo d s s' := by
  induction h with
  | @last t ht => exact ⟨t.text, .last ht, .of_keeps (Term.keeps ht d)⟩
  | @more t ts w w' s ht hw hw' h ih =>
    obtain ⟨s', hs', hc⟩ := ih
    exact ⟨_, .more ht (Blanks.squeezed w) (Blanks.squeezed w') hs',
      .append (.of_keeps (Term.keeps ht d)) (.separated hw hw' (by decide) rfl h.solid hc)⟩

end Separated

theorem IsName.keeps {name : List Char} (hn : IsName name) (d : Int) :
    Keeps d (Scan.at d) name (Scan.at d) :=
  keeps_plain (Int.le_refl d) fun c hc => isPlain_of_isNameChar (hn.2 c hc)

theorem IsName.solid {name : List Char} (hn : IsName name) : Solid name :=
  Solid.of_plain hn.1 fun c hc => isPlain_of_isNameChar (hn.2 c hc)

namespace CallText

variable {c : WrittenCall} {t : List Char}

/-- A name and parentheses. -/
theorem solid_parens {name : List Char} (hn : IsName name) (s : List Char) :
    Solid (name ++ '(' :: (s ++ [')'])) :=
  hn.solid.append ('(' :: s) (Solid.of_word (List.cons_ne_nil ')' []) (by decide))

theorem solid (h : CallText c t) : Solid t := by
  cases h with
  | noArgs hn => exact solid_parens hn []
  | args hn hs => exact solid_parens hn _

theorem collapsesTo (h : CallText c t) : ∃ t', CallText c t' ∧ CollapsesTo 0 t t' := by
  cases h with
  | noArgs hn => exact ⟨_, .noArgs hn, .append (.of_keeps (hn.keeps 0)) (.parens fun _ => rfl)⟩
  | args hn hs =>
    obtain ⟨s', hs', hc⟩ := hs.collapsesTo 1
    exact ⟨_, .args hn hs', .append (.of_keeps (hn.keeps 0)) (.parens hc)⟩

end CallText

namespace ChainText

variable {cs : List WrittenCall} {s : List Char}

theorem solid (h : ChainText cs s) : Solid s := by
  induction h with
  | last h => exact h.solid
  | more h hw hw' hs ih => exact h.solid.separated _ _ _ ih

theorem collapsesTo (h : ChainText cs s) : ∃ s', ChainText cs s' ∧ CollapsesTo 0 s s' := by
  induction h with
  | last h =>
    obtain ⟨t', ht', hc⟩ := h.collapsesTo
    exact ⟨t', .last ht', hc⟩
  | @more c cs t w w' s h hw hw' hs ih =>
    obtain ⟨t', ht', hct⟩ := h.collapsesTo
    obtain ⟨s', hs', hcs⟩ := ih
    exact ⟨_, .more ht' (Blanks.squeezed w) (Blanks.squeezed w') hs',
      .append hct (.separated hw hw' (by decide) rfl hs.solid hcs)⟩

end ChainText

/-- A chain ends with a parenthesis. -/
theorem ChainText.getLast? {cs : List WrittenCall} {s : List Char} (h : ChainText cs s) :
    s.getLast? = some ')' := by
  induction h with
  | last h =>
    cases h with
    | noArgs _ => simp
    | args _ _ => simp [List.getLast?_cons]
  | more _ _ _ _ ih => simp [List.getLast?_append, List.getLast?_cons, ih]

/-- Only the blanks around a command and one semicolon are cut off. -/
theorem stripped_of_solid {t : List Char} (h : Solid t) (hlast : t.getLast? ≠ some ';') :
    stripped t = t ∧ stripped (t ++ [';']) = t := by
  have hend : trimEnd t = t := by
    obtain ⟨l, c, rfl, hc⟩ := h.last
    exact trimEnd_append_solid l c hc
  have hsemicolon : Solid (t ++ [';']) := by
    have happ := h.append [] (Solid.of_word (List.cons_ne_nil ';' []) (by decide))
    rwa [List.nil_append] at happ
  constructor
  · rw [stripped, h.trim, dropLast?, if_neg hlast]
    exact hend
  · rw [stripped, hsemicolon.trim, dropLast?, List.getLast?_concat, if_pos rfl,
      List.dropLast_concat]
    exact hend

section Command

variable {collection : List Char} {calls : List WrittenCall} {t : List Char}

theorem ExpressionText.stripped (h : ExpressionText collection calls t) :
    stripped t = t ∧ stripped (t ++ [';']) = t := by
  obtain ⟨hc, hs⟩ := h
  refine stripped_of_solid ?_ ?_
  · have happ := (Solid.of_word (t := "db.".toList) (by decide) (by decide)).append
      (collection ++ ['.']) hs.solid
    rwa [List.append_assoc] at happ
  · simp [List.getLast?_append, List.getLast?_cons, hs.getLast?]

theorem ExpressionText.collapsesTo (h : ExpressionText collection calls t) :
    ∃ t', ExpressionText collection calls t' ∧ CollapsesTo 0 t t' := by
  obtain ⟨hc, hs⟩ := h
  obtain ⟨s', hs', hcollapse⟩ := hs.collapsesTo
  have hcollection : Keeps 0 (Scan.at 0) collection (Scan.at 0) :=
    keeps_plain (Int.le_refl 0) fun c hmem => (isPlain_of_isCollectionChar (hc.2 c hmem)).1
  have hdot : Keeps 0 (Scan.at 0) ['.'] (Scan.at 0) := keeps_word (Int.le_refl 0) (by decide)
  exact ⟨_, .mk hc hs', .append (.of_keeps (keeps_word (Int.le_refl 0) (by decide)))
    (.append (.of_keeps hcollection) (.append (.of_keeps hdot) hcollapse))⟩

/-- The normal form of a text of a command is a text of it too, without the semicolon. -/
theorem CommandText.normalized (h : CommandText collection calls t) :
    ExpressionText collection calls (normalized t) := by
  have hnormal : ∀ e, ExpressionText collection calls e →
      ExpressionText collection calls (collapse Scan.start false e) := by
    intro e he
    obtain ⟨e', he', hc⟩ := he.collapsesTo
    have hwhole := hc []
    rw [List.append_nil, collapse, List.append_nil] at hwhole
    rw [show Scan.start = Scan.at 0 from rfl, hwhole]
    exact he'
  cases h with
  | bare he =>
    rw [Mongo.normalized, he.stripped.1]
    exact hnormal _ he
  | semicolon he =>
    rw [Mongo.normalized, he.stripped.2]
    exact hnormal _ he

end Command

end Polyshell.Mongo
