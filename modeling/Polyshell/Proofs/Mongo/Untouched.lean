/-
  The rewriting of relaxed literals leaves the documents of JSON as they are.

  Nothing tells the rewriting that a text is strict already.  It looks for words that stand where a key
  may stand, or that call for something; at every closing bracket it looks back for a comma; and it
  copies each string anew.  None of this changes a document:

  1. **Strings** — the copy of what may stand between double quotes is the text itself
     (`copyString_bodyText`), an escape included that the reader would refuse.

  2. **Parts** — `Untouched t` says of a text that it is left alone in front of whatever may end a value,
     and that it does not end with a comma.  The second half is what a closing bracket asks of the text
     in front of it, so that the two carry the induction together.  Words are no keys, because no value
     is followed by a colon.

  3. **Documents** — every part of a document is untouched (`Untouched.of_documentText`), and with
     it the whole (`quoteLiteral_document`).
-/
import Polyshell.Proofs.Json.Document
import Polyshell.Proofs.Mongo.Relaxed

namespace Polyshell.Mongo

open Polyshell.Text
open Polyshell.Json (Spaces isNumeralChar NumberText EscapeText BodyText DocumentText IsDocument)

/-! ## Strings -/

/-- A string is copied as it is. -/
theorem copyString_bodyText {t : List Char} (h : BodyText t) (r : List Char) :
    copyString '"' (t ++ '"' :: r) = (t ++ ['"'], r) := by
  induction h with
  | nil =>
    rw [List.nil_append, copyString.eq_3 _ _ _ (fun _ _ hc _ => absurd hc (by decide)), if_pos rfl]
    rfl
  | raw hc hq hb _ ih => exact copyString_plain ih hb hq hq
  | escape he _ ih =>
    cases he with
    | @single c hc =>
      refine copyString_escaped ih ?_
      rintro rfl
      exact absurd hc (by decide)
    | unit hx => exact copyString_escaped (copyString_hex4 ih (Or.inl rfl) hx) (by decide)

/-- So is one between its quotes, whatever follows. -/
theorem rewritten_bodyText (ambient : Ambient) (out : List Char) {t : List Char} (h : BodyText t)
    (rest : List Char) : rewritten ambient out ('"' :: (t ++ '"' :: rest)) =
      rewritten ambient ('"' :: (t.reverse ++ '"' :: out)) rest := by
  rw [rewritten_string ambient out (by decide), copyString_bodyText h, List.reverse_append]
  rfl

/-! ## Parts -/

/-- The text is left alone in front of what may end a value, and does not end with a comma. -/
structure Untouched (t : List Char) : Prop where
  rewritten : ∀ ambient out rest, EndsValue rest →
    Mongo.rewritten ambient out (t ++ rest) = Mongo.rewritten ambient (t.reverse ++ out) rest
  last : ∀ out, lastSolid? (t.reverse ++ out) ≠ some ','

/-- Blanks in front of what may end a value belong to that. -/
theorem EndsValue.spaces_append {w rest : List Char} (hw : Spaces w) (h : EndsValue rest) :
    EndsValue (w ++ rest) := by
  obtain ⟨v, r, hv, rfl, hr⟩ := h
  exact ⟨w ++ v, r, hw.append hv, (List.append_assoc w v r).symm, hr⟩

/-- The last character that is written decides, unless it is blank. -/
theorem lastSolid?_concat {c : Char} (hb : isBlank c = false) (s out : List Char) :
    lastSolid? ((s ++ [c]).reverse ++ out) = some c := by
  rw [List.reverse_append, List.reverse_singleton, List.singleton_append, List.cons_append,
    lastSolid?_cons hb]

namespace Untouched

variable {t ts w : List Char}

/-- A text without blanks and commas does not end with one. -/
theorem last_of_chars (hne : t ≠ []) (h : ∀ c ∈ t, isBlank c = false ∧ c ≠ ',')
    (out : List Char) : lastSolid? (t.reverse ++ out) ≠ some ',' := by
  obtain ⟨s, c, rfl⟩ := (List.eq_nil_or_concat t).resolve_left hne
  rw [List.concat_eq_append] at h ⊢
  obtain ⟨hb, hc⟩ := h c (List.mem_append_right s List.mem_cons_self)
  rw [lastSolid?_concat hb]
  exact fun he => hc (Option.some.inj he)

theorem word (hne : w ≠ []) (hw : ∀ c ∈ w, isWordChar c = true)
    (hs : ∀ s ∈ reservedWords, w ≠ s.toList) : Untouched w where
  rewritten ambient out _ hrest :=
    rewritten_plain ambient out hne hw hrest.endsWord (hrest.not_key out) (wordSense_plain hs _)
  last := last_of_chars hne fun c hc =>
    ⟨not_isBlank_of_isWordChar (hw c hc), by rintro rfl; exact absurd (hw _ hc) (by decide)⟩

theorem numeral (hne : t ≠ []) (h : ∀ c ∈ t, isNumeralChar c = true) : Untouched t where
  rewritten ambient out _ hrest := rewritten_numeral ambient hrest _ t out (Nat.le_refl _) h
  last := last_of_chars hne fun c hc =>
    ⟨not_isBlank_of_isNumeralChar (h c hc), by rintro rfl; exact absurd (h _ hc) (by decide)⟩

theorem string (h : BodyText t) : Untouched ('"' :: (t ++ ['"'])) where
  rewritten ambient out rest _ := by
    rw [List.cons_append, List.append_assoc, List.singleton_append, rewritten_bodyText ambient out h]
    simp
  last out := by
    rw [← List.cons_append, lastSolid?_concat (by decide)]
    decide

/-! ### What stands around -/

theorem spaces_append (hw : Spaces w) (h : Untouched t) : Untouched (w ++ t) where
  rewritten ambient out rest hrest := by
    rw [List.append_assoc, rewritten_spaces ambient hw, h.rewritten ambient _ rest hrest,
      List.reverse_append, List.append_assoc]
  last out := by
    rw [List.reverse_append, List.append_assoc]
    exact h.last _

theorem append_spaces (h : Untouched t) (hw : Spaces w) : Untouched (t ++ w) where
  rewritten ambient out rest hrest := by
    rw [List.append_assoc, h.rewritten ambient out _ (hrest.spaces_append hw),
      rewritten_spaces ambient hw, List.reverse_append, List.append_assoc]
  last out := by
    rw [List.reverse_append, List.append_assoc, lastSolid?_spaces hw]
    exact h.last out

/-- Two of them with a comma between. -/
theorem comma (h : Untouched t) (hw : Spaces w) (hs : Untouched ts) :
    Untouched (t ++ (w ++ ',' :: ts)) where
  rewritten ambient out rest hrest := by
    have hends : EndsValue (w ++ ',' :: (ts ++ rest)) := .of_spaces hw _ (Or.inl rfl)
    rw [List.append_assoc, List.append_assoc, List.cons_append, h.rewritten ambient out _ hends,
      rewritten_spaces ambient hw, rewritten_mark ambient _ (Or.inl rfl),
      hs.rewritten ambient _ rest hrest]
    simp
  last out := by
    have hlast := hs.last (',' :: (w.reverse ++ (t.reverse ++ out)))
    simpa using hlast

/-- A value behind a key. -/
theorem keyed {k w' : List Char} (hk : BodyText k) (hw : Spaces w) (hw' : Spaces w')
    (h : Untouched t) : Untouched ('"' :: (k ++ '"' :: (w ++ ':' :: (w' ++ t)))) where
  rewritten ambient out rest hrest := by
    simp only [List.cons_append, List.append_assoc]
    rw [rewritten_bodyText ambient out hk, rewritten_spaces ambient hw,
      rewritten_mark ambient _ (Or.inr rfl), rewritten_spaces ambient hw',
      h.rewritten ambient _ rest hrest]
    simp
  last out := by
    have hlast := h.last (w'.reverse ++ ':' :: (w.reverse ++ '"' :: (k.reverse ++ '"' :: out)))
    simpa using hlast

/-- A closing bracket is no comma. -/
theorem last_of_closing {o c : Char} (hc : c = '\x7d' ∨ c = ']') (out : List Char) :
    lastSolid? ((o :: (t ++ [c])).reverse ++ out) ≠ some ',' := by
  have hsolid : isBlank c = false ∧ c ≠ ',' := by rcases hc with rfl | rfl <;> decide
  rw [← List.cons_append, lastSolid?_concat hsolid.1]
  exact fun he => hsolid.2 (Option.some.inj he)

section Brackets

variable {o c : Char} (ho : o = '[' ∨ o = '\x7b') (hc : c = '\x7d' ∨ c = ']')
include ho hc

/-- The closing bracket finds no comma that it could take back. -/
theorem enclosed (h : Untouched t) : Untouched (o :: (t ++ [c])) where
  rewritten ambient out rest _ := by
    have hends : EndsValue (c :: rest) := .of_spaces Json.Spaces.nil rest (Or.inr hc.symm)
    rw [List.cons_append, List.append_assoc, List.singleton_append, rewritten_open ambient out ho,
      h.rewritten ambient _ _ hends, rewritten_close ambient _ hc, withoutComma_of_solid (h.last _)]
    simp
  last := last_of_closing hc

theorem empty (hw : Spaces w) : Untouched (o :: (w ++ [c])) where
  rewritten ambient out rest _ := by
    rw [List.cons_append, List.append_assoc, List.singleton_append,
      rewritten_empty ambient out ho hc hw]
    simp
  last := last_of_closing hc

end Brackets

/-- **No part of a document is touched.** -/
theorem of_documentText {p : Json.DocumentPart} (h : DocumentText p t) : Untouched t := by
  induction h with
  | null => exact .word (List.cons_ne_nil _ _) (List.all_eq_true.mp (by decide)) (by decide)
  | isTrue => exact .word (List.cons_ne_nil _ _) (List.all_eq_true.mp (by decide)) (by decide)
  | isFalse => exact .word (List.cons_ne_nil _ _) (List.all_eq_true.mp (by decide)) (by decide)
  | number h =>
    obtain ⟨c, r, ht, -⟩ := h.head
    exact .numeral (ht ▸ List.cons_ne_nil c r) h.chars
  | string h => exact .string h
  | noElements hw => exact .empty (Or.inl rfl) (Or.inr rfl) hw
  | array _ ih => exact .enclosed (Or.inl rfl) (Or.inr rfl) ih
  | noMembers hw => exact .empty (Or.inr rfl) (Or.inl rfl) hw
  | object _ ih => exact .enclosed (Or.inr rfl) (Or.inl rfl) ih
  | lastElement hw _ hw' ih => exact .spaces_append hw (ih.append_spaces hw')
  | element hw _ hw' _ ih ihs => exact .spaces_append hw (ih.comma hw' ihs)
  | lastMember hw hk hw₁ hw₂ _ hw' ih =>
    exact .spaces_append hw (.keyed hk hw₁ hw₂ (ih.append_spaces hw'))
  | member hw hk hw₁ hw₂ _ hw' _ ih ihs =>
    exact .spaces_append hw (.keyed hk hw₁ hw₂ (ih.comma hw' ihs))

/-- Its strict form is the text itself. -/
theorem strictText (h : Untouched t) (ambient : Ambient) : Mongo.strictText ambient t = .ok t := by
  have hrewritten := h.rewritten ambient [] [] EndsValue.nil
  rw [List.append_nil, List.append_nil, rewritten_nil, List.reverse_reverse] at hrewritten
  rw [Mongo.strictText, show strictFrom ambient t.length [] t = .ok t from hrewritten]

end Untouched

/-! ## Documents -/

theorem strictText_document (ambient : Ambient) {text : List Char} (h : IsDocument text) :
    strictText ambient text = .ok text := by
  obtain ⟨w, t, w', hw, ht, hw', rfl⟩ := h
  exact (Untouched.spaces_append hw ((Untouched.of_documentText ht).append_spaces hw')).strictText
    ambient

/-- A literal that is JSON already is read as JSON reads it. -/
theorem ofLiteral_of_read (ambient : Ambient) {text : List Char} {v : Json}
    (h : Json.read text = .ok v) : Argument.ofLiteral ambient text = .ok (Argument.ofJson v) := by
  rw [Argument.ofLiteral, strictText_document ambient (.of_readWithin h)]
  simp only [h]

/-- **Documents pass through untouched**, character for character. -/
theorem quoteLiteral_document (ambient : Ambient) {text : String} (h : IsDocument text.toList) :
    quoteLiteral ambient text = .ok text := by
  rw [quoteLiteral, strictText_document ambient h]
  exact congrArg Except.ok String.ofList_toList

/-- The name of a constructor as a key, a bracket behind a comma inside of a string, and what the
    reader refuses: half of a pair of surrogates, and a number that is too large. -/
theorem quoteLiteral_document_unread :
    IsDocument "[ -0.5E+400 ,\x7b\"Date\" :\"\\uD800(, ]'\"\x7d]\n".toList ∧
      quoteLiteral ⟨0, fun _ => default⟩ "[ -0.5E+400 ,\x7b\"Date\" :\"\\uD800(, ]'\"\x7d]\n" =
        .ok "[ -0.5E+400 ,\x7b\"Date\" :\"\\uD800(, ]'\"\x7d]\n" := by
  have hnone : Spaces [] := Json.Spaces.nil
  have hspace : Spaces [' '] := List.forall_mem_singleton.mpr rfl
  have hnumber : NumberText (['-'] ++ (['0'] ++ '.' :: (['5'] ++ 'E' :: (['+'] ++ ['4', '0', '0'])))) :=
    .mk (Or.inr rfl) Json.Whole.zero (.present (by decide) (List.all_eq_true.mp (by decide))
      (.present (Or.inr rfl) (Or.inr (Or.inl rfl)) (by decide) (List.all_eq_true.mp (by decide))))
  have hkey : BodyText ['D', 'a', 't', 'e'] := .of_plain (by simp)
  have hunit : EscapeText ['u', 'D', '8', '0', '0'] := .unit ⟨13, 8, 0, 0, rfl, rfl, rfl, rfl, rfl⟩
  have hbody : BodyText ('\\' :: (['u', 'D', '8', '0', '0'] ++ ['(', ',', ' ', ']', '\''])) :=
    .escape hunit (.of_plain (by simp))
  have hmembers := DocumentText.lastMember hnone hkey hspace hnone (.string hbody) hnone
  have helements := DocumentText.element hspace (.number hnumber) hspace
    (.lastElement hnone (.object hmembers) hnone)
  have h : IsDocument "[ -0.5E+400 ,\x7b\"Date\" :\"\\uD800(, ]'\"\x7d]\n".toList :=
    ⟨[], _, ['\n'], hnone, .array helements, List.forall_mem_singleton.mpr rfl, rfl⟩
  exact ⟨h, quoteLiteral_document _ h⟩

end Polyshell.Mongo
