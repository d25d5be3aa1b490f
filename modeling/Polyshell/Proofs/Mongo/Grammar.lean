/-
  The grammar of relaxed literals.

  `Literal L p t` says how a literal is written, and nothing of what it denotes: JSON, and beyond it
  keys without quotes, strings between single quotes, `undefined`, a comma behind the last entry of
  a container, and the calls of constructors, those of numbers with a minus sign in front or not.

  A text that is read need not keep to this.  The ways in which it can depart from the grammar are
  the four `Liberty`s, one production for each, and `L` says which of them may be taken: none in a
  literal that is `WellFormed`.  A departure can be seen: if a text has none of the forms that
  `Liberty.ShowsIn` lists, no liberty was taken in it (`Literal.shows`).
-/
import Polyshell.Proofs.Json.NumberText
import Polyshell.Proofs.Mongo.Constructors

namespace Polyshell.Mongo

open Polyshell.Text
open Polyshell.Json (Spaces isNumeralChar Escape NumberText)

/-- What a text that is read can have, and the grammar does not. -/
inductive Liberty where
  /-- The call of a number has more of a number around it. -/
  | glued
  /-- An empty container has a comma. -/
  | loneComma
  /-- Among the blanks behind the last comma there is one that JSON does not have. -/
  | foreignBlank
  /-- A single quote between double quotes has a backslash. -/
  | apostrophe

/-! ## Strings and keys -/

/-- What stands between two quotes `q`; where `lax` holds, a single quote may have a backslash. -/
inductive Enclosed (lax : Prop) (q : Char) : List Char → Prop
  | nil : Enclosed lax q []
  | raw {c : Char} {t : List Char} (hc : 0x20 ≤ c.toNat) (hq : c ≠ q) (hb : c ≠ '\\')
      (h : Enclosed lax q t) : Enclosed lax q (c :: t)
  | escape {c : Char} {e t : List Char} (he : Escape c e) (h : Enclosed lax q t) :
      Enclosed lax q ('\\' :: (e ++ t))
  | quote {t : List Char} (hq : q = '\'' ∨ lax) (h : Enclosed lax q t) :
      Enclosed lax q ('\\' :: '\'' :: t)

/-- A string between quotes of either kind. -/
inductive StringText (lax : Prop) : List Char → Prop
  | mk {q : Char} {t : List Char} (hq : Scan.isQuote q = true) (h : Enclosed lax q t) :
      StringText lax (q :: (t ++ [q]))

/-- A key: a string, or a word. -/
inductive KeyText (lax : Prop) : List Char → Prop
  | quoted {t : List Char} (h : StringText lax t) : KeyText lax t
  | bare {t : List Char} (hne : t ≠ []) (ht : ∀ c ∈ t, isWordChar c = true) : KeyText lax t

/-! ## Numbers with calls in them -/

/-- Characters of numbers, and calls that make numbers, one behind another. -/
inductive Parts : List Char → Prop
  | nil : Parts []
  | char {c : Char} {t : List Char} (hc : isNumeralChar c = true) (h : Parts t) : Parts (c :: t)
  | call {con : Constructor} {arg t r : List Char} (hcon : con.IsNumber)
      (ht : ConstructorCall con arg t) (h : Parts r) : Parts (t ++ r)

/-- A call that is not the whole of the number it stands in, a minus sign in front apart. -/
inductive Glued : List Char → Prop
  | mk {con : Constructor} {arg a t b : List Char} (ha : Parts a) (hcon : con.IsNumber)
      (ht : ConstructorCall con arg t) (hb : Parts b) (hmore : b = [] → a ≠ [] ∧ a ≠ ['-']) :
      Glued (a ++ (t ++ b))

/-! ## Values -/

/-- The two kinds of containers. -/
inductive Container where
  | array
  | object

namespace Container

def opening : Container → Char
  | array => '['
  | object => '\x7b'

def closing : Container → Char
  | array => ']'
  | object => '\x7d'

@[simp] theorem closing_array : array.closing = ']' := rfl

@[simp] theorem closing_object : object.closing = '\x7d' := rfl

end Container

/-- The parts of a literal: a value; an element or a member; and the entries of a container. -/
inductive LiteralPart where
  | value
  | entry (k : Container)
  | entries (k : Container)

/-- `Literal L p t` — `t` is written as a part `p` of a literal, with liberties of `L` at most. -/
inductive Literal (L : Liberty → Prop) : LiteralPart → List Char → Prop
  | null : Literal L .value ['n', 'u', 'l', 'l']
  | undefined : Literal L .value ['u', 'n', 'd', 'e', 'f', 'i', 'n', 'e', 'd']
  | isTrue : Literal L .value ['t', 'r', 'u', 'e']
  | isFalse : Literal L .value ['f', 'a', 'l', 's', 'e']
  | number {t : List Char} (h : NumberText t) : Literal L .value t
  | string {t : List Char} (h : StringText (L .apostrophe) t) : Literal L .value t
  | call {con : Constructor} {arg t : List Char} (ht : ConstructorCall con arg t) :
      Literal L .value t
  | minusCall {con : Constructor} {arg t : List Char} (hcon : con.IsNumber)
      (ht : ConstructorCall con arg t) : Literal L .value ('-' :: t)
  | glued {t : List Char} (hL : L .glued) (h : Glued t) : Literal L .value t
  | empty (k : Container) {w : List Char} (hw : Spaces w) :
      Literal L .value (k.opening :: (w ++ [k.closing]))
  | loneComma (k : Container) {w w' : List Char} (hL : L .loneComma) (hw : Spaces w)
      (hw' : Blanks w') : Literal L .value (k.opening :: (w ++ ',' :: (w' ++ [k.closing])))
  | filled {k : Container} {t : List Char} (h : Literal L (.entries k) t) :
      Literal L .value (k.opening :: (t ++ [k.closing]))
  /-- A comma behind the last entry. -/
  | comma {k : Container} {t w : List Char} (h : Literal L (.entries k) t) (hw : Spaces w) :
      Literal L .value (k.opening :: (t ++ ',' :: (w ++ [k.closing])))
  | foreignBlank {k : Container} {t w : List Char} (hL : L .foreignBlank)
      (h : Literal L (.entries k) t) (hw : Blanks w) (hforeign : ¬ Spaces w) :
      Literal L .value (k.opening :: (t ++ ',' :: (w ++ [k.closing])))
  | element {t : List Char} (h : Literal L .value t) : Literal L (.entry .array) t
  | member {tk w w' t : List Char} (hk : KeyText (L .apostrophe) tk) (hw : Spaces w)
      (hw' : Spaces w') (h : Literal L .value t) :
      Literal L (.entry .object) (tk ++ (w ++ ':' :: (w' ++ t)))
  | last {k : Container} {w t w' : List Char} (hw : Spaces w) (h : Literal L (.entry k) t)
      (hw' : Spaces w') : Literal L (.entries k) (w ++ (t ++ w'))
  | more {k : Container} {w t w' ts : List Char} (hw : Spaces w) (h : Literal L (.entry k) t)
      (hw' : Spaces w') (hs : Literal L (.entries k) ts) :
      Literal L (.entries k) (w ++ (t ++ (w' ++ ',' :: ts)))

/-- A literal without any liberties. -/
def WellFormed (t : List Char) : Prop := Literal (fun _ => False) .value t

/-- Any liberty may be taken. -/
def anyLiberty : Liberty → Prop := fun _ => True

/-! ## More liberties -/

section Strings

variable {lax lax' : Prop} (hlax : lax → lax') {t : List Char}
include hlax

theorem Enclosed.mono {q : Char} (h : Enclosed lax q t) : Enclosed lax' q t := by
  induction h with
  | nil => exact .nil
  | raw hc hq hb _ ih => exact .raw hc hq hb ih
  | escape he _ ih => exact .escape he ih
  | quote hq _ ih => exact .quote (hq.imp_right hlax) ih

theorem StringText.mono (h : StringText lax t) : StringText lax' t := by
  obtain ⟨hq, h⟩ := h
  exact .mk hq (h.mono hlax)

theorem KeyText.mono (h : KeyText lax t) : KeyText lax' t := by
  cases h with
  | quoted h => exact .quoted (h.mono hlax)
  | bare hne ht => exact .bare hne ht

end Strings

theorem Literal.mono {L L' : Liberty → Prop} (hL : ∀ ℓ, L ℓ → L' ℓ) {p : LiteralPart}
    {t : List Char} (h : Literal L p t) : Literal L' p t := by
  induction h with
  | null => exact .null
  | undefined => exact .undefined
  | isTrue => exact .isTrue
  | isFalse => exact .isFalse
  | number h => exact .number h
  | string h => exact .string (h.mono (hL _))
  | call ht => exact .call ht
  | minusCall hcon ht => exact .minusCall hcon ht
  | glued h ht => exact .glued (hL _ h) ht
  | empty k hw => exact .empty k hw
  | loneComma k h hw hw' => exact .loneComma k (hL _ h) hw hw'
  | filled _ ih => exact .filled ih
  | comma _ hw ih => exact .comma ih hw
  | foreignBlank h _ hw hforeign ih => exact .foreignBlank (hL _ h) ih hw hforeign
  | element _ ih => exact .element ih
  | member hk hw hw' _ ih => exact .member (hk.mono (hL _)) hw hw' ih
  | last hw _ hw' ih => exact .last hw ih hw'
  | more hw _ hw' _ ih ihs => exact .more hw ih hw' ihs

/-! ## Liberties can be seen -/

/-- How a text looks in which the liberty was taken. -/
def Liberty.ShowsIn : Liberty → List Char → Prop
  | .glued, t => ∃ g, Glued g ∧ g <:+: t
  | .loneComma, t => ∃ (k : Container) (w w' : List Char), Spaces w ∧ Blanks w' ∧
      (k.opening :: (w ++ ',' :: (w' ++ [k.closing]))) <:+: t
  | .foreignBlank, t => ∃ (k : Container) (w : List Char), Blanks w ∧ ¬ Spaces w ∧
      (',' :: (w ++ [k.closing])) <:+: t
  | .apostrophe, t => ∃ b, Enclosed True '"' b ∧ ('"' :: (b ++ ['\\', '\''])) <:+: t

theorem Liberty.ShowsIn.of_infix {ℓ : Liberty} {t t' : List Char} (h : ℓ.ShowsIn t)
    (ht : t <:+: t') : ℓ.ShowsIn t' := by
  cases ℓ with
  | glued =>
    obtain ⟨g, hg, hin⟩ := h
    exact ⟨g, hg, hin.trans ht⟩
  | loneComma =>
    obtain ⟨k, w, w', hw, hw', hin⟩ := h
    exact ⟨k, w, w', hw, hw', hin.trans ht⟩
  | foreignBlank =>
    obtain ⟨k, w, hw, hforeign, hin⟩ := h
    exact ⟨k, w, hw, hforeign, hin.trans ht⟩
  | apostrophe =>
    obtain ⟨b, hb, hin⟩ := h
    exact ⟨b, hb, hin.trans ht⟩

/-- Between double quotes a liberty is only taken where a single quote has a backslash. -/
theorem Enclosed.shows {lax : Prop} {t : List Char} (h : Enclosed lax '"' t) :
    Enclosed (∃ b c, Enclosed True '"' b ∧ t = b ++ '\\' :: '\'' :: c) '"' t := by
  induction h with
  | nil => exact .nil
  | @raw x t hc hq hb _ ih =>
    refine .raw hc hq hb (ih.mono ?_)
    rintro ⟨b, c, hbody, rfl⟩
    exact ⟨x :: b, c, .raw hc hq hb hbody, rfl⟩
  | @escape x e t he _ ih =>
    refine .escape he (ih.mono ?_)
    rintro ⟨b, c, hbody, rfl⟩
    exact ⟨'\\' :: (e ++ b), c, .escape he hbody, by rw [List.cons_append, List.append_assoc]⟩
  | @quote t _ _ ih =>
    refine .quote (Or.inr ⟨[], t, .nil, rfl⟩) (ih.mono ?_)
    rintro ⟨b, c, hbody, rfl⟩
    exact ⟨'\\' :: '\'' :: b, c, .quote (Or.inr trivial) hbody, rfl⟩

/-- Between single quotes none is needed. -/
theorem Enclosed.single {lax : Prop} (lax' : Prop) {t : List Char} (h : Enclosed lax '\'' t) :
    Enclosed lax' '\'' t := by
  induction h with
  | nil => exact .nil
  | raw hc hq hb _ ih => exact .raw hc hq hb ih
  | escape he _ ih => exact .escape he ih
  | quote _ _ ih => exact .quote (Or.inl rfl) ih

theorem StringText.shows {lax : Prop} {t : List Char} (h : StringText lax t) :
    StringText (Liberty.apostrophe.ShowsIn t) t := by
  obtain @⟨q, t, hq, h⟩ := h
  refine .mk hq ?_
  rw [Scan.isQuote, Bool.or_eq_true, decide_eq_true_eq, decide_eq_true_eq] at hq
  rcases hq with rfl | rfl
  · refine h.shows.mono ?_
    rintro ⟨b, c, hb, rfl⟩
    exact ⟨b, hb, [], c ++ ['"'], by simp⟩
  · exact h.single _

theorem KeyText.shows {lax : Prop} {t : List Char} (h : KeyText lax t) :
    KeyText (Liberty.apostrophe.ShowsIn t) t := by
  cases h with
  | quoted h => exact .quoted h.shows
  | bare hne ht => exact .bare hne ht

/-- **Every liberty that is taken can be seen.** -/
theorem Literal.shows {L : Liberty → Prop} {p : LiteralPart} {t : List Char} (h : Literal L p t) :
    Literal (fun ℓ => ℓ.ShowsIn t) p t := by
  have hinside : ∀ {t t' : List Char} {p : LiteralPart}, Literal (fun ℓ => ℓ.ShowsIn t) p t →
      t <:+: t' → Literal (fun ℓ => ℓ.ShowsIn t') p t :=
    fun h ht => h.mono fun ℓ hℓ => hℓ.of_infix ht
  induction h with
  | null => exact .null
  | undefined => exact .undefined
  | isTrue => exact .isTrue
  | isFalse => exact .isFalse
  | number h => exact .number h
  | string h => exact .string h.shows
  | call ht => exact .call ht
  | minusCall hcon ht => exact .minusCall hcon ht
  | @glued t _ ht => exact .glued ⟨t, ht, List.infix_rfl⟩ ht
  | empty k hw => exact .empty k hw
  | @loneComma k w w' _ hw hw' =>
    exact .loneComma k ⟨k, w, w', hw, hw', List.infix_rfl⟩ hw hw'
  | @filled k t _ ih => exact .filled (hinside ih ⟨[k.opening], [k.closing], rfl⟩)
  | @comma k t w _ hw ih =>
    exact .comma (hinside ih ⟨[k.opening], ',' :: (w ++ [k.closing]), rfl⟩) hw
  | @foreignBlank k t w _ _ hw hforeign ih =>
    have hshows : (',' :: (w ++ [k.closing])) <:+: k.opening :: (t ++ ',' :: (w ++ [k.closing])) :=
      ⟨k.opening :: t, [], by simp⟩
    exact .foreignBlank ⟨k, w, hw, hforeign, hshows⟩
      (hinside ih ⟨[k.opening], ',' :: (w ++ [k.closing]), rfl⟩) hw hforeign
  | element _ ih => exact .element ih
  | @member tk w w' t hk hw hw' _ ih =>
    have hkey : tk <:+: tk ++ (w ++ ':' :: (w' ++ t)) := (List.prefix_append _ _).isInfix
    exact .member (hk.shows.mono fun h => h.of_infix hkey) hw hw'
      (hinside ih ⟨tk ++ (w ++ ':' :: w'), [], by simp⟩)
  | @last k w t w' hw _ hw' ih => exact .last hw (hinside ih ⟨w, w', by simp⟩) hw'
  | @more k w t w' ts hw _ hw' _ ih ihs =>
    exact .more hw (hinside ih ⟨w, w' ++ ',' :: ts, by simp⟩) hw'
      (hinside ihs ⟨w ++ (t ++ (w' ++ [','])), [], by simp⟩)

/-- A literal in which no liberty shows is well-formed. -/
theorem Literal.wellFormed {L : Liberty → Prop} {t : List Char} (h : Literal L .value t)
    (hnone : ∀ ℓ : Liberty, ¬ ℓ.ShowsIn t) : WellFormed t :=
  h.shows.mono hnone

end Polyshell.Mongo
