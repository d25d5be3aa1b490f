/-
  The documents of JSON.

  `Strict` says which texts the reader takes, and as what.  `DocumentText` is the grammar of JSON by
  itself: it says nothing of values, and sets no limits.  Containers nest to any depth, a number may be
  too large for the reader, and an escape may name half of a pair of surrogates.  So there are documents
  that the reader refuses; but whatever it reads is one (`IsDocument.of_readWithin`).
-/
import Polyshell.Proofs.Json.Exact
import Polyshell.Proofs.Json.NumberText

namespace Polyshell.Json

/-! ## Strings -/

/-- What may stand behind a backslash. -/
inductive EscapeText : List Char → Prop
  | single {c : Char} (hc : c ∈ ['"', '\\', '/', 'b', 'f', 'n', 'r', 't']) : EscapeText [c]
  | unit {a b c d : Char} {n : Nat} (h : Hex4 a b c d n) : EscapeText ['u', a, b, c, d]

/-- What may stand between double quotes. -/
inductive BodyText : List Char → Prop
  | nil : BodyText []
  | raw {c : Char} {t : List Char} (hc : 0x20 ≤ c.toNat) (hq : c ≠ '"') (hb : c ≠ '\\')
      (h : BodyText t) : BodyText (c :: t)
  | escape {e t : List Char} (he : EscapeText e) (h : BodyText t) : BodyText ('\\' :: (e ++ t))

/-- Characters that need no escape. -/
theorem BodyText.of_plain {t : List Char} (h : ∀ c ∈ t, 0x20 ≤ c.toNat ∧ c ≠ '"' ∧ c ≠ '\\') :
    BodyText t := by
  induction t with
  | nil => exact .nil
  | cons c t ih =>
    obtain ⟨hc, hq, hb⟩ := h c List.mem_cons_self
    exact .raw hc hq hb (ih fun d hd => h d (List.mem_cons_of_mem c hd))

theorem Body.bodyText {s t : List Char} (h : Body s t) : BodyText t := by
  induction h with
  | nil => exact .nil
  | raw hc hq hb _ ih => exact .raw hc hq hb ih
  | @escape c e s t he _ ih =>
    cases he with
    | unit hx => exact .escape (.unit hx) ih
    | @pair a b c d a' b' c' d' n m hx hx' =>
      -- the two halves are two escapes here
      have hlow : BodyText ('\\' :: (['u', a', b', c', d'] ++ t)) := .escape (.unit hx') ih
      exact BodyText.escape (e := ['u', a, b, c, d]) (.unit hx) hlow
    | _ => exact .escape (.single (by decide)) ih

/-! ## Values -/

/-- The parts of a document: a value, and what stands between brackets that are not empty. -/
inductive DocumentPart where
  | value
  | elements
  | members

/-- `DocumentText p t` — `t` is written as a part `p` of a document. -/
inductive DocumentText : DocumentPart → List Char → Prop
  | null : DocumentText .value ['n', 'u', 'l', 'l']
  | isTrue : DocumentText .value ['t', 'r', 'u', 'e']
  | isFalse : DocumentText .value ['f', 'a', 'l', 's', 'e']
  | number {t : List Char} (h : NumberText t) : DocumentText .value t
  | string {t : List Char} (h : BodyText t) : DocumentText .value ('"' :: (t ++ ['"']))
  | noElements {w : List Char} (hw : Spaces w) : DocumentText .value ('[' :: (w ++ [']']))
  | array {t : List Char} (h : DocumentText .elements t) : DocumentText .value ('[' :: (t ++ [']']))
  | noMembers {w : List Char} (hw : Spaces w) : DocumentText .value ('\x7b' :: (w ++ ['\x7d']))
  | object {t : List Char} (h : DocumentText .members t) :
      DocumentText .value ('\x7b' :: (t ++ ['\x7d']))
  | lastElement {w t w' : List Char} (hw : Spaces w) (h : DocumentText .value t) (hw' : Spaces w') :
      DocumentText .elements (w ++ (t ++ w'))
  | element {w t w' ts : List Char} (hw : Spaces w) (h : DocumentText .value t) (hw' : Spaces w')
      (hs : DocumentText .elements ts) : DocumentText .elements (w ++ (t ++ (w' ++ ',' :: ts)))
  | lastMember {w k w₁ w₂ t w' : List Char} (hw : Spaces w) (hk : BodyText k) (hw₁ : Spaces w₁)
      (hw₂ : Spaces w₂) (h : DocumentText .value t) (hw' : Spaces w') :
      DocumentText .members (w ++ '"' :: (k ++ '"' :: (w₁ ++ ':' :: (w₂ ++ (t ++ w')))))
  | member {w k w₁ w₂ t w' ts : List Char} (hw : Spaces w) (hk : BodyText k) (hw₁ : Spaces w₁)
      (hw₂ : Spaces w₂) (h : DocumentText .value t) (hw' : Spaces w')
      (hs : DocumentText .members ts) :
      DocumentText .members
        (w ++ '"' :: (k ++ '"' :: (w₁ ++ ':' :: (w₂ ++ (t ++ (w' ++ ',' :: ts))))))

/-- A document: one value, and blanks around it. -/
def IsDocument (text : List Char) : Prop :=
  ∃ w t w', Spaces w ∧ DocumentText .value t ∧ Spaces w' ∧ text = w ++ (t ++ w')

/-! ## What the reader takes -/

/-- The part of a document that writes a part of a value. -/
def Part.written : Part → DocumentPart
  | .value _ => .value
  | .items _ => .elements
  | .members _ => .members

theorem Strict.documentText {d : Nat} {p : Part} {t : List Char} (h : Strict d p t) :
    DocumentText p.written t := by
  induction h with
  | null => exact .null
  | isTrue => exact .isTrue
  | isFalse => exact .isFalse
  | num h => exact .number h.numberText
  | str h => exact .string h.bodyText
  | noItems hw => exact .noElements hw
  | arr _ ih => exact .array ih
  | noMembers hw => exact .noMembers hw
  | obj _ ih => exact .object ih
  | lastItem hw _ hw' ih => exact .lastElement hw ih hw'
  | item hw _ hw' _ ih ihs => exact .element hw ih hw' ihs
  | lastMember hw hk hw₁ hw₂ _ hw' ih => exact .lastMember hw hk.bodyText hw₁ hw₂ ih hw'
  | member hw hk hw₁ hw₂ _ hw' _ ih ihs => exact .member hw hk.bodyText hw₁ hw₂ ih hw' ihs

/-- Whatever is read is a document, whatever the limit on its depth. -/
theorem IsDocument.of_readWithin {d : Nat} {text : List Char} {v : Json}
    (h : readWithin d text = .ok v) : IsDocument text := by
  obtain ⟨w, t, w', htext, hw, hstrict, hw'⟩ := readWithin_eq_ok_iff.mp h
  exact ⟨w, t, w', hw, hstrict.documentText, hw', htext⟩

end Polyshell.Json
