/-
  Relaxed literals mean what their strict form means.

  1. **Grammar** — `Relaxed p t`: `t` is a relaxed way to write a JSON value.  Beyond strict JSON
     the user may leave a key without quotes if it is a word, put any string between single quotes,
     write `undefined` for null, and put a comma behind the last element or member.  Blanks of JSON
     may stand between all tokens.

  2. **Rewriting** — `Relaxed.rewritten`: whatever was written before, the rewriting turns such a
     text into a strict text (`Json.Strict`) of the same value.  The induction is on the derivation.
     For a value the statement is about any rest that ends it.  For elements and members it takes
     the closing bracket in, because only there a last comma is taken back.

  3. **Reading** — with the reader's side (`Json.Strict.readWithin`) a relaxed literal is read as the
     value itself, up to what printing and reading do to any value (`Json.reread`).
-/
import Polyshell.Proofs.Json.Reread
import Polyshell.Proofs.Mongo.Coercion
import Polyshell.Proofs.Mongo.Rewriting

namespace Polyshell.Mongo

open Polyshell.Text
open Polyshell.Json (Spaces isSpace Escape Body Part Strict Hex4)

/-! ## Strings and keys -/

/-- `Single s t` — the characters `s` stand as `t` between single quotes. -/
inductive Single : List Char → List Char → Prop
  | nil : Single [] []
  | raw {c : Char} {s t : List Char} (hc : 0x20 ≤ c.toNat) (hq : c ≠ '\'') (hb : c ≠ '\\')
      (h : Single s t) : Single (c :: s) (c :: t)
  | quote {s t : List Char} (h : Single s t) : Single ('\'' :: s) ('\\' :: '\'' :: t)
  | escape {c : Char} {e s t : List Char} (he : Escape c e) (h : Single s t) :
      Single (c :: s) ('\\' :: (e ++ t))

/-- `Quoted s t` — `t` is a string literal of the characters `s`, with its quotes. -/
inductive Quoted : List Char → List Char → Prop
  | double {s t : List Char} (h : Body s t) : Quoted s ('"' :: (t ++ ['"']))
  | single {s t : List Char} (h : Single s t) : Quoted s ('\'' :: (t ++ ['\'']))

/-- `Key k t` — `t` is the key `k`: a string literal, or the word itself. -/
inductive Key : List Char → List Char → Prop
  | quoted {k t : List Char} (h : Quoted k t) : Key k t
  | bare {k : List Char} (hne : k ≠ []) (hk : ∀ c ∈ k, isWordChar c = true) : Key k k

/-! ## Values -/

/-- `Relaxed p t` — `t` is a relaxed way to write `p`. -/
inductive Relaxed : Part → List Char → Prop
  | null : Relaxed (.value .null) ['n', 'u', 'l', 'l']
  | undefined : Relaxed (.value .null) ['u', 'n', 'd', 'e', 'f', 'i', 'n', 'e', 'd']
  | isTrue : Relaxed (.value (.bool true)) ['t', 'r', 'u', 'e']
  | isFalse : Relaxed (.value (.bool false)) ['f', 'a', 'l', 's', 'e']
  | num (n : Json.Number) : Relaxed (.value (.num n)) n.text
  | str {s : String} {t : List Char} (h : Quoted s.toList t) : Relaxed (.value (.str s)) t
  | noItems {w : List Char} (hw : Spaces w) : Relaxed (.value (.arr [])) ('[' :: (w ++ [']']))
  | arr {vs : List Json} {t : List Char} (h : Relaxed (.items vs) t) :
      Relaxed (.value (.arr vs)) ('[' :: (t ++ [']']))
  | noMembers {w : List Char} (hw : Spaces w) :
      Relaxed (.value (.obj [])) ('\x7b' :: (w ++ ['\x7d']))
  | obj {ms : List (String × Json)} {t : List Char} (h : Relaxed (.members ms) t) :
      Relaxed (.value (.obj ms)) ('\x7b' :: (t ++ ['\x7d']))
  | lastItem {v : Json} {w t w' : List Char} (hw : Spaces w) (h : Relaxed (.value v) t)
      (hw' : Spaces w') : Relaxed (.items [v]) (w ++ (t ++ w'))
  /-- The last element, with a comma behind it. -/
  | lastItemComma {v : Json} {w t w' w'' : List Char} (hw : Spaces w) (h : Relaxed (.value v) t)
      (hw' : Spaces w') (hw'' : Spaces w'') : Relaxed (.items [v]) (w ++ (t ++ (w' ++ ',' :: w'')))
  | item {v : Json} {vs : List Json} {w t w' ts : List Char} (hw : Spaces w)
      (h : Relaxed (.value v) t) (hw' : Spaces w') (hs : Relaxed (.items vs) ts) :
      Relaxed (.items (v :: vs)) (w ++ (t ++ (w' ++ ',' :: ts)))
  | lastMember {k : String} {v : Json} {w tk w₁ w₂ t w' : List Char} (hw : Spaces w)
      (hk : Key k.toList tk) (hw₁ : Spaces w₁) (hw₂ : Spaces w₂) (h : Relaxed (.value v) t)
      (hw' : Spaces w') :
      Relaxed (.members [(k, v)]) (w ++ (tk ++ (w₁ ++ ':' :: (w₂ ++ (t ++ w')))))
  /-- The last member, with a comma behind it. -/
  | lastMemberComma {k : String} {v : Json} {w tk w₁ w₂ t w' w'' : List Char} (hw : Spaces w)
      (hk : Key k.toList tk) (hw₁ : Spaces w₁) (hw₂ : Spaces w₂) (h : Relaxed (.value v) t)
      (hw' : Spaces w') (hw'' : Spaces w'') :
      Relaxed (.members [(k, v)]) (w ++ (tk ++ (w₁ ++ ':' :: (w₂ ++ (t ++ (w' ++ ',' :: w''))))))
  | member {k : String} {v : Json} {ms : List (String × Json)} {w tk w₁ w₂ t w' ts : List Char}
      (hw : Spaces w) (hk : Key k.toList tk) (hw₁ : Spaces w₁) (hw₂ : Spaces w₂)
      (h : Relaxed (.value v) t) (hw' : Spaces w') (hs : Relaxed (.members ms) ts) :
      Relaxed (.members ((k, v) :: ms))
        (w ++ (tk ++ (w₁ ++ ':' :: (w₂ ++ (t ++ (w' ++ ',' :: ts))))))

/-! ## Strings are copied to strict strings -/

/-- A hexadecimal digit is no quote and no backslash. -/
theorem plain_of_hexValue? {x : Char} {w : Nat} (hw : Utf8.hexValue? x = some w) :
    x ≠ '\\' ∧ x ≠ '"' ∧ x ≠ '\'' := by
  have hne : ∀ y, Utf8.hexValue? y = none → x ≠ y := by
    rintro y hy rfl
    rw [hw] at hy
    cases hy
  exact ⟨hne _ (by decide), hne _ (by decide), hne _ (by decide)⟩

section Copy

variable {q : Char} {r s rest : List Char} (h : copyString q r = (s, rest))
include h

theorem copyString_escaped {c : Char} (hc : c ≠ '\'') :
    copyString q ('\\' :: c :: r) = ('\\' :: c :: s, rest) := by
  rw [copyString, h]
  simp only [if_neg hc]

theorem copyString_char {c : Char} (hb : c ≠ '\\') (hq : c ≠ q) :
    copyString q (c :: r) = (if c = '"' then '\\' :: '"' :: s else c :: s, rest) := by
  rw [copyString.eq_3 q c r (fun _ _ hc _ => hb hc), if_neg hq, h]

theorem copyString_plain {c : Char} (hb : c ≠ '\\') (hq : c ≠ q) (hd : c ≠ '"') :
    copyString q (c :: r) = (c :: s, rest) := by
  rw [copyString_char h hb hq, if_neg hd]

/-- Hexadecimal digits are plain inside either kind of quotes. -/
theorem copyString_hex4 (hq : q = '"' ∨ q = '\'') {a b c d : Char} {n : Nat} (hx : Hex4 a b c d n) :
    copyString q (a :: b :: c :: d :: r) = (a :: b :: c :: d :: s, rest) := by
  have hplain : ∀ {x : Char} {w : Nat}, Utf8.hexValue? x = some w →
      x ≠ '\\' ∧ x ≠ q ∧ x ≠ '"' := by
    intro x w hw
    obtain ⟨hb, hd, hs⟩ := plain_of_hexValue? hw
    refine ⟨hb, ?_, hd⟩
    rcases hq with rfl | rfl
    · exact hd
    · exact hs
  obtain ⟨w, x, y, z, ha, hb, hc, hd, -⟩ := hx
  have h4 := copyString_plain h (hplain hd).1 (hplain hd).2.1 (hplain hd).2.2
  have h3 := copyString_plain h4 (hplain hc).1 (hplain hc).2.1 (hplain hc).2.2
  have h2 := copyString_plain h3 (hplain hb).1 (hplain hb).2.1 (hplain hb).2.2
  exact copyString_plain h2 (hplain ha).1 (hplain ha).2.1 (hplain ha).2.2

/-- The escapes of JSON are copied as they are. -/
theorem copyString_escape (hq : q = '"' ∨ q = '\'') {c : Char} {e : List Char} (he : Escape c e) :
    copyString q ('\\' :: (e ++ r)) = ('\\' :: (e ++ s), rest) := by
  cases he with
  | unit hx hn => exact copyString_escaped (copyString_hex4 h hq hx) (by decide)
  | pair hx hx' hn hm =>
    exact copyString_escaped (copyString_hex4
      (copyString_escaped (copyString_hex4 h hq hx') (by decide)) hq hx) (by decide)
  | _ => exact copyString_escaped h (by decide)

end Copy

/-- A double-quoted string is copied as it is. -/
theorem copyString_body {s t : List Char} (h : Body s t) (r : List Char) :
    copyString '"' (t ++ '"' :: r) = (t ++ ['"'], r) := by
  induction h with
  | nil => rw [List.nil_append, copyString.eq_3 _ _ _ (fun _ _ hc _ => absurd hc (by decide)), if_pos rfl]; rfl
  | raw hc hq hb h ih => exact copyString_plain ih hb hq hq
  | escape he h ih =>
    rw [List.cons_append, List.append_assoc, copyString_escape ih (Or.inl rfl) he,
      List.cons_append, List.append_assoc]

/-- A single-quoted string is copied to a strict string of the same characters. -/
theorem Single.copied {s t : List Char} (h : Single s t) :
    ∃ t', Body s t' ∧ ∀ r, copyString '\'' (t ++ '\'' :: r) = (t' ++ ['"'], r) := by
  induction h with
  | nil =>
    refine ⟨[], .nil, fun r => ?_⟩
    rw [List.nil_append, copyString.eq_3 _ _ _ (fun _ _ hc _ => absurd hc (by decide)), if_pos rfl]
    rfl
  | @raw c s t hc hq hb h ih =>
    obtain ⟨t', hbody, hcopy⟩ := ih
    by_cases hd : c = '"'
    · subst hd
      exact ⟨'\\' :: (['"'] ++ t'), .escape .quote hbody, fun r => copyString_char (hcopy r) hb hq⟩
    · exact ⟨c :: t', .raw hc hd hb hbody, fun r => copyString_plain (hcopy r) hb hq hd⟩
  | quote h ih =>
    obtain ⟨t', hbody, hcopy⟩ := ih
    refine ⟨'\'' :: t', .raw (by decide) (by decide) (by decide) hbody, fun r => ?_⟩
    rw [List.cons_append, List.cons_append, copyString, hcopy r]
    rfl
  | @escape c e s t he h ih =>
    obtain ⟨t', hbody, hcopy⟩ := ih
    refine ⟨'\\' :: (e ++ t'), .escape he hbody, fun r => ?_⟩
    rw [List.cons_append, List.append_assoc, copyString_escape (hcopy r) (Or.inr rfl) he,
      List.cons_append, List.append_assoc]

/-- A string literal is rewritten to a strict one. -/
theorem Quoted.rewritten {s t : List Char} (h : Quoted s t) :
    ∃ t', Body s t' ∧ ∀ ambient out rest, rewritten ambient out (t ++ rest) =
      Mongo.rewritten ambient ('"' :: (t'.reverse ++ '"' :: out)) rest := by
  cases h with
  | @double t h =>
    refine ⟨t, h, fun ambient out rest => ?_⟩
    rw [List.cons_append, List.append_assoc, List.singleton_append,
      rewritten_string ambient out (by decide), copyString_body h, List.reverse_append]
    rfl
  | @single t h =>
    obtain ⟨t', hbody, hcopy⟩ := h.copied
    refine ⟨t', hbody, fun ambient out rest => ?_⟩
    rw [List.cons_append, List.append_assoc, List.singleton_append,
      rewritten_string ambient out (by decide), hcopy, List.reverse_append]
    rfl

/-- No control is a character of words. -/
theorem le_toNat_of_isWordChar {c : Char} (h : isWordChar c = true) : 0x20 ≤ c.toNat := by
  have hall : ∀ n : Fin 0x20, isWordChar (Char.ofNat n.val) = false := by decide
  rcases Nat.lt_or_ge c.toNat 0x20 with hlt | hge
  · have hc := hall ⟨c.toNat, hlt⟩
    rw [Char.ofNat_toNat, h] at hc
    cases hc
  · exact hge

/-- The characters of words need no escape. -/
theorem body_of_word {w : List Char} (hw : ∀ c ∈ w, isWordChar c = true) : Body w w := by
  induction w with
  | nil => exact .nil
  | cons c w ih =>
    have hc := hw c List.mem_cons_self
    refine .raw (le_toNat_of_isWordChar hc) ?_ ?_ (ih fun d hd => hw d (List.mem_cons_of_mem c hd))
    · rintro rfl; exact absurd hc (by decide)
    · rintro rfl; exact absurd hc (by decide)

/-- The characters of words need no escape between single quotes, either. -/
theorem single_of_word {w : List Char} (hw : ∀ c ∈ w, isWordChar c = true) : Single w w := by
  induction w with
  | nil => exact .nil
  | cons c w ih =>
    have hc := hw c List.mem_cons_self
    refine .raw (le_toNat_of_isWordChar hc) ?_ ?_ (ih fun d hd => hw d (List.mem_cons_of_mem c hd))
    · rintro rfl; exact absurd hc (by decide)
    · rintro rfl; exact absurd hc (by decide)

/-- What was written ends where a key may stand: behind an opening brace or a comma. -/
def OpensKey (out : List Char) : Prop := lastSolid? out = some '\x7b' ∨ lastSolid? out = some ','

theorem OpensKey.spaces {out w : List Char} (h : OpensKey out) (hw : Spaces w) :
    OpensKey (w.reverse ++ out) := by
  rw [OpensKey, lastSolid?_spaces hw]
  exact h

/-- A key is rewritten to a strict one. -/
theorem Key.rewritten {k t : List Char} (h : Key k t) :
    ∃ t', Body k t' ∧ ∀ ambient out w r, OpensKey out → Spaces w →
      rewritten ambient out (t ++ (w ++ ':' :: r)) =
        Mongo.rewritten ambient ('"' :: (t'.reverse ++ '"' :: out)) (w ++ ':' :: r) := by
  cases h with
  | quoted h =>
    obtain ⟨t', hbody, hq⟩ := h.rewritten
    exact ⟨t', hbody, fun ambient out w r _ _ => hq ambient out _⟩
  | bare hne hk =>
    refine ⟨_, body_of_word hk, fun ambient out w r hout hw => ?_⟩
    have hends : EndsWord (w ++ ':' :: r) := by
      intro c s hc
      cases w with
      | nil => obtain ⟨rfl, -⟩ := List.cons.inj hc; decide
      | cons d w =>
        obtain ⟨rfl, -⟩ := List.cons.inj hc
        exact (isSpace_other (hw d List.mem_cons_self)).2.2.2
    have hkey : isKeyPosition out (w ++ ':' :: r) = true := by
      rw [isKeyPosition, trimStart_spaces hw, trimStart_of_solid (by decide)]
      rcases hout with hout | hout <;> rw [hout] <;> rfl
    exact rewritten_key ambient out hne hk hends hkey

/-! ## Values are rewritten to strict values -/

/-- The last character of a strict value is no blank and no comma. -/
theorem lastSolid?_of_strict {d : Nat} {v : Json} {t : List Char} (h : Strict d (.value v) t)
    (out : List Char) : lastSolid? (t.reverse ++ out) ≠ some ',' := by
  have hlast : ∀ {s : List Char} {c : Char}, t = s ++ [c] → isBlank c = false → c ≠ ',' →
      lastSolid? (t.reverse ++ out) ≠ some ',' := by
    rintro s c rfl hb hc
    rw [List.reverse_append, List.reverse_singleton, List.singleton_append, List.cons_append,
      lastSolid?, trimStart_of_solid hb]
    exact fun he => hc (Option.some.inj he)
  cases h with
  | null => exact hlast (s := ['n', 'u', 'l']) rfl (by decide) (by decide)
  | isTrue => exact hlast (s := ['t', 'r', 'u']) rfl (by decide) (by decide)
  | isFalse => exact hlast (s := ['f', 'a', 'l', 's']) rfl (by decide) (by decide)
  | num h =>
    have hne := h.ne_nil
    have hc := h.chars _ (List.getLast_mem hne)
    refine hlast (List.dropLast_concat_getLast hne).symm (not_isBlank_of_isNumeralChar hc) ?_
    intro he
    rw [he] at hc
    exact absurd hc (by decide)
  | str h => exact hlast (List.cons_append ..).symm (by decide) (by decide)
  | noItems hw => exact hlast (List.cons_append ..).symm (by decide) (by decide)
  | arr h => exact hlast (List.cons_append ..).symm (by decide) (by decide)
  | noMembers hw => exact hlast (List.cons_append ..).symm (by decide) (by decide)
  | obj h => exact hlast (List.cons_append ..).symm (by decide) (by decide)

/-- `Becomes p t s` — behind anything, the rewriting turns the text `t` of a part into `s`.  For the
    parts between brackets this takes the closing bracket in. -/
def Becomes : Part → List Char → List Char → Prop
  | .value _, t, s => ∀ ambient out rest, EndsValue rest →
      rewritten ambient out (t ++ rest) = rewritten ambient (s.reverse ++ out) rest
  | .items _, t, s => ∀ ambient out rest,
      rewritten ambient out (t ++ ']' :: rest) = rewritten ambient (']' :: (s.reverse ++ out)) rest
  | .members _, t, s => ∀ ambient out rest, OpensKey out →
      rewritten ambient out (t ++ '\x7d' :: rest) =
        rewritten ambient ('\x7d' :: (s.reverse ++ out)) rest

/-- One of the words that JSON has for values. -/
theorem becomes_word {v : Json} {w : List Char} (hne : w ≠ []) (hw : ∀ c ∈ w, isWordChar c = true)
    (hs : ∀ s ∈ reservedWords, w ≠ s.toList) : Becomes (.value v) w w :=
  fun ambient out _ hrest =>
    rewritten_plain ambient out hne hw hrest.endsWord (hrest.not_key out) (wordSense_plain hs _)

/-- An opening bracket is left alone. -/
theorem rewritten_open (ambient : Ambient) (out : List Char) {c : Char} (hc : c = '[' ∨ c = '\x7b')
    (r : List Char) : rewritten ambient out (c :: r) = rewritten ambient (c :: out) r := by
  have hother : Scan.isQuote c = false ∧ c ≠ '\x7d' ∧ c ≠ ']' ∧ isWordChar c = false := by
    rcases hc with rfl | rfl <;> decide
  exact rewritten_other ambient out hother.1 hother.2.1 hother.2.2.1 hother.2.2.2 r

/-- A comma or a colon is left alone. -/
theorem rewritten_mark (ambient : Ambient) (out : List Char) {c : Char} (hc : c = ',' ∨ c = ':')
    (r : List Char) : rewritten ambient out (c :: r) = rewritten ambient (c :: out) r := by
  have hother : Scan.isQuote c = false ∧ c ≠ '\x7d' ∧ c ≠ ']' ∧ isWordChar c = false := by
    rcases hc with rfl | rfl <;> decide
  exact rewritten_other ambient out hother.1 hother.2.1 hother.2.2.1 hother.2.2.2 r

theorem lastSolid?_cons {c : Char} (hc : isBlank c = false) (out : List Char) :
    lastSolid? (c :: out) = some c := by
  rw [lastSolid?, trimStart_of_solid hc]
  rfl

/-- A container with blanks in it only. -/
theorem rewritten_empty (ambient : Ambient) (out : List Char) {o c : Char}
    (ho : o = '[' ∨ o = '\x7b') (hc : c = '\x7d' ∨ c = ']') {w : List Char} (hw : Spaces w)
    (rest : List Char) : rewritten ambient out (o :: (w ++ c :: rest)) =
      rewritten ambient (c :: (w.reverse ++ o :: out)) rest := by
  have hsolid : isBlank o = false ∧ o ≠ ',' := by rcases ho with rfl | rfl <;> decide
  have hlast : lastSolid? (w.reverse ++ o :: out) ≠ some ',' := by
    rw [lastSolid?_spaces hw, lastSolid?_cons hsolid.1]
    exact fun he => hsolid.2 (Option.some.inj he)
  rw [rewritten_open ambient out ho, rewritten_spaces ambient hw, rewritten_close ambient _ hc,
    withoutComma_of_solid hlast]

section Last

variable {v : Json} {t s : List Char} (hb : Becomes (.value v) t s) {w : List Char} (hw : Spaces w)
  (ambient : Ambient) (out rest : List Char)
include hb hw

/-- A value with blanks behind it, in front of what ends it. -/
theorem rewritten_value {c : Char} (hc : c = ',' ∨ c = ']' ∨ c = '\x7d') :
    rewritten ambient out (t ++ (w ++ c :: rest)) =
      rewritten ambient (w.reverse ++ (s.reverse ++ out)) (c :: rest) := by
  rw [hb ambient out _ (EndsValue.of_spaces hw rest hc), rewritten_spaces ambient hw]

/-- The last value of a container, and the closing bracket. -/
theorem rewritten_last {d : Nat} {v' : Json} (hs : Strict d (.value v') s) {c : Char}
    (hc : c = '\x7d' ∨ c = ']') :
    rewritten ambient out (t ++ (w ++ c :: rest)) =
      rewritten ambient (c :: (w.reverse ++ (s.reverse ++ out))) rest := by
  have hlast : lastSolid? (w.reverse ++ (s.reverse ++ out)) ≠ some ',' := by
    rw [lastSolid?_spaces hw]
    exact lastSolid?_of_strict hs out
  rw [rewritten_value hb hw ambient out rest (Or.inr hc.symm), rewritten_close ambient _ hc,
    withoutComma_of_solid hlast]

/-- The last value of a container with a comma behind it, and the closing bracket: the comma is
    taken back. -/
theorem rewritten_last_comma {w' : List Char} (hw' : Spaces w') {c : Char}
    (hc : c = '\x7d' ∨ c = ']') :
    rewritten ambient out (t ++ (w ++ ',' :: (w' ++ c :: rest))) =
      rewritten ambient (c :: (w.reverse ++ (s.reverse ++ out))) rest := by
  rw [rewritten_value hb hw ambient out _ (Or.inl rfl), rewritten_mark ambient _ (Or.inl rfl),
    rewritten_spaces ambient hw', rewritten_close ambient _ hc, withoutComma_of_comma (Blanks.of_spaces hw')]

end Last

/-- A key, the colon behind it, and the blanks around that. -/
theorem rewritten_member_key {tk tk' : List Char}
    (hk : ∀ ambient out w r, OpensKey out → Spaces w → rewritten ambient out (tk ++ (w ++ ':' :: r)) =
      rewritten ambient ('"' :: (tk'.reverse ++ '"' :: out)) (w ++ ':' :: r))
    {w w₁ w₂ : List Char} (hw : Spaces w) (hw₁ : Spaces w₁) (hw₂ : Spaces w₂) (ambient : Ambient)
    {out : List Char} (hout : OpensKey out) (r : List Char) :
    rewritten ambient out (w ++ (tk ++ (w₁ ++ ':' :: (w₂ ++ r)))) =
      rewritten ambient ((w ++ '"' :: (tk' ++ '"' :: (w₁ ++ ':' :: w₂))).reverse ++ out) r := by
  rw [rewritten_spaces ambient hw, hk ambient _ w₁ _ (hout.spaces hw) hw₁,
    rewritten_spaces ambient hw₁, rewritten_mark ambient _ (Or.inr rfl), rewritten_spaces ambient hw₂]
  simp only [List.reverse_append, List.reverse_cons, List.append_assoc, List.cons_append,
    List.nil_append]

/-- **Relaxed texts become strict ones.** -/
theorem Relaxed.becomes {p : Part} {t : List Char} (h : Relaxed p t) :
    p.Valid → ∀ d, p.nesting ≤ d → ∃ s, Strict d p.reread s ∧ Becomes p t s := by
  induction h with
  | null =>
    intro _ d _
    exact ⟨_, .null, becomes_word (List.cons_ne_nil _ _) (List.all_eq_true.mp (by decide))
      (by decide)⟩
  | undefined =>
    intro _ d _
    refine ⟨_, .null, fun ambient out rest hrest => ?_⟩
    exact rewritten_undefined ambient out (List.cons_ne_nil _ _)
      (List.all_eq_true.mp (by decide)) hrest.endsWord (hrest.not_key out) rfl
  | isTrue =>
    intro _ d _
    exact ⟨_, .isTrue, becomes_word (List.cons_ne_nil _ _) (List.all_eq_true.mp (by decide))
      (by decide)⟩
  | isFalse =>
    intro _ d _
    exact ⟨_, .isFalse, becomes_word (List.cons_ne_nil _ _) (List.all_eq_true.mp (by decide))
      (by decide)⟩
  | num n =>
    intro hv d _
    have hn := Json.Number.numeral_of_valid hv
    exact ⟨_, .num hn, fun ambient out rest hrest =>
      rewritten_numeral ambient hrest _ _ out (Nat.le_refl _) hn.chars⟩
  | @str s t h =>
    intro _ d _
    obtain ⟨t', hbody, hq⟩ := h.rewritten
    have hstrict := Strict.str (d := d) hbody
    rw [String.ofList_toList] at hstrict
    refine ⟨_, hstrict, fun ambient out rest _ => ?_⟩
    rw [hq ambient out rest]
    simp only [List.reverse_cons, List.reverse_append, List.reverse_nil, List.nil_append,
      List.append_assoc, List.cons_append]
  | @noItems w hw =>
    intro _ d hd
    obtain ⟨d, rfl⟩ := Nat.exists_eq_succ_of_ne_zero (show d ≠ 0 by rintro rfl; cases hd)
    refine ⟨_, .noItems hw, fun ambient out rest _ => ?_⟩
    rw [List.cons_append, List.append_assoc, List.singleton_append,
      rewritten_empty ambient out (Or.inl rfl) (Or.inr rfl) hw]
    simp only [List.reverse_cons, List.reverse_append, List.reverse_nil, List.nil_append,
      List.append_assoc, List.cons_append]
  | @arr vs t h ih =>
    intro hv d hd
    obtain ⟨d, rfl⟩ := Nat.exists_eq_succ_of_ne_zero (show d ≠ 0 by rintro rfl; cases hd)
    obtain ⟨s, hs, hb⟩ := ih hv d (Nat.le_of_succ_le_succ hd)
    refine ⟨_, .arr hs, fun ambient out rest _ => ?_⟩
    rw [List.cons_append, List.append_assoc, List.singleton_append,
      rewritten_open ambient out (Or.inl rfl), hb ambient _ rest]
    simp only [List.reverse_cons, List.reverse_append, List.reverse_nil, List.nil_append,
      List.append_assoc, List.cons_append]
  | @noMembers w hw =>
    intro _ d hd
    obtain ⟨d, rfl⟩ := Nat.exists_eq_succ_of_ne_zero (show d ≠ 0 by rintro rfl; cases hd)
    refine ⟨_, .noMembers hw, fun ambient out rest _ => ?_⟩
    -- the open brace just written is what makes a bare word in front of a colon a key
    rw [List.cons_append, List.append_assoc, List.singleton_append,
      rewritten_empty ambient out (Or.inr rfl) (Or.inl rfl) hw]
    simp only [List.reverse_cons, List.reverse_append, List.reverse_nil, List.nil_append,
      List.append_assoc, List.cons_append]
  | @obj ms t h ih =>
    intro hv d hd
    obtain ⟨d, rfl⟩ := Nat.exists_eq_succ_of_ne_zero (show d ≠ 0 by rintro rfl; cases hd)
    obtain ⟨s, hs, hb⟩ := ih hv d (Nat.le_of_succ_le_succ hd)
    refine ⟨_, .obj hs, fun ambient out rest _ => ?_⟩
    rw [List.cons_append, List.append_assoc, List.singleton_append,
      rewritten_open ambient out (Or.inr rfl),
      hb ambient _ rest (Or.inl (lastSolid?_cons (by decide) out))]
    simp only [List.reverse_cons, List.reverse_append, List.reverse_nil, List.nil_append,
      List.append_assoc, List.cons_append]
  -- from here on the closing bracket belongs to the text: a last comma is taken back only there
  | @lastItem v w t w' hw h hw' ih =>
    intro hv d hd
    obtain ⟨s, hs, hb⟩ := ih hv.1 d (Nat.le_trans (Nat.le_max_left _ _) hd)
    refine ⟨_, .lastItem hw hs hw', fun ambient out rest => ?_⟩
    rw [List.append_assoc, List.append_assoc, rewritten_spaces ambient hw,
      rewritten_last hb hw' ambient _ rest hs (Or.inr rfl)]
    simp only [List.reverse_append, List.append_assoc]
  | @lastItemComma v w t w' w'' hw h hw' hw'' ih =>
    intro hv d hd
    obtain ⟨s, hs, hb⟩ := ih hv.1 d (Nat.le_trans (Nat.le_max_left _ _) hd)
    refine ⟨_, .lastItem hw hs hw', fun ambient out rest => ?_⟩
    rw [List.append_assoc, List.append_assoc, List.append_assoc, List.cons_append,
      rewritten_spaces ambient hw, rewritten_last_comma hb hw' ambient _ rest hw'' (Or.inr rfl)]
    simp only [List.reverse_append, List.append_assoc]
  | @item v vs w t w' ts hw h hw' hts ih ihs =>
    intro hv d hd
    obtain ⟨s, hs, hb⟩ := ih hv.1 d (Nat.le_trans (Nat.le_max_left _ _) hd)
    obtain ⟨ss, hss, hbs⟩ := ihs hv.2 d (Nat.le_trans (Nat.le_max_right _ _) hd)
    refine ⟨_, .item hw hs hw' hss, fun ambient out rest => ?_⟩
    rw [List.append_assoc, List.append_assoc, List.append_assoc, List.cons_append,
      rewritten_spaces ambient hw, rewritten_value hb hw' ambient _ _ (Or.inl rfl),
      rewritten_mark ambient _ (Or.inl rfl), hbs ambient _ rest]
    simp only [List.reverse_append, List.reverse_cons, List.append_assoc, List.cons_append,
      List.nil_append]
  | @lastMember k v w tk w₁ w₂ t w' hw hk hw₁ hw₂ h hw' ih =>
    intro hv d hd
    obtain ⟨s, hs, hb⟩ := ih hv.1 d (Nat.le_trans (Nat.le_max_left _ _) hd)
    obtain ⟨tk', hbody, hkey⟩ := hk.rewritten
    have hstrict := Strict.lastMember hw hbody hw₁ hw₂ hs hw'
    rw [String.ofList_toList] at hstrict
    refine ⟨_, hstrict, fun ambient out rest hout => ?_⟩
    simp only [List.append_assoc, List.cons_append]
    rw [rewritten_member_key hkey hw hw₁ hw₂ ambient hout,
      rewritten_last hb hw' ambient _ rest hs (Or.inl rfl)]
    simp only [List.reverse_append, List.reverse_cons, List.append_assoc, List.cons_append,
      List.nil_append]
  | @lastMemberComma k v w tk w₁ w₂ t w' w'' hw hk hw₁ hw₂ h hw' hw'' ih =>
    intro hv d hd
    obtain ⟨s, hs, hb⟩ := ih hv.1 d (Nat.le_trans (Nat.le_max_left _ _) hd)
    obtain ⟨tk', hbody, hkey⟩ := hk.rewritten
    have hstrict := Strict.lastMember hw hbody hw₁ hw₂ hs hw'
    rw [String.ofList_toList] at hstrict
    refine ⟨_, hstrict, fun ambient out rest hout => ?_⟩
    simp only [List.append_assoc, List.cons_append]
    rw [rewritten_member_key hkey hw hw₁ hw₂ ambient hout,
      rewritten_last_comma hb hw' ambient _ rest hw'' (Or.inl rfl)]
    simp only [List.reverse_append, List.reverse_cons, List.append_assoc, List.cons_append,
      List.nil_append]
  | @member k v ms w tk w₁ w₂ t w' ts hw hk hw₁ hw₂ h hw' hts ih ihs =>
    intro hv d hd
    obtain ⟨s, hs, hb⟩ := ih hv.1 d (Nat.le_trans (Nat.le_max_left _ _) hd)
    obtain ⟨ss, hss, hbs⟩ := ihs hv.2 d (Nat.le_trans (Nat.le_max_right _ _) hd)
    obtain ⟨tk', hbody, hkey⟩ := hk.rewritten
    have hstrict := Strict.member hw hbody hw₁ hw₂ hs hw' hss
    rw [String.ofList_toList] at hstrict
    refine ⟨_, hstrict, fun ambient out rest hout => ?_⟩
    simp only [List.append_assoc, List.cons_append]
    -- the comma behind this member lets the next key be bare
    rw [rewritten_member_key hkey hw hw₁ hw₂ ambient hout,
      rewritten_value hb hw' ambient _ _ (Or.inl rfl), rewritten_mark ambient _ (Or.inl rfl),
      hbs ambient _ rest (Or.inr (lastSolid?_cons (by decide) _))]
    simp only [List.reverse_append, List.reverse_cons, List.append_assoc, List.cons_append,
      List.nil_append]

/-! ## Literals as arguments -/

/-- A value whose text is a literal. -/
def IsContainer : Json → Prop
  | .arr _ => True
  | .obj _ => True
  | _ => False

/-- A relaxed container stands between brackets. -/
theorem Relaxed.brackets {v : Json} {t : List Char} (h : Relaxed (.value v) t) (hv : IsContainer v) :
    ∃ o m c, t = o :: (m ++ [c]) ∧ (o = '[' ∨ o = '\x7b') ∧ (c = ']' ∨ c = '\x7d') := by
  cases h with
  | noItems hw => exact ⟨_, _, _, rfl, Or.inl rfl, Or.inl rfl⟩
  | arr h => exact ⟨_, _, _, rfl, Or.inl rfl, Or.inl rfl⟩
  | noMembers hw => exact ⟨_, _, _, rfl, Or.inr rfl, Or.inr rfl⟩
  | obj h => exact ⟨_, _, _, rfl, Or.inr rfl, Or.inr rfl⟩
  | _ => exact hv.elim

/-- As an argument it is a literal. -/
theorem Relaxed.ofText_eq {v : Json} {t : List Char} (h : Relaxed (.value v) t) (hv : IsContainer v)
    (ambient : Ambient) : Argument.ofText ambient t = Argument.ofLiteral ambient t := by
  obtain ⟨o, m, c, rfl, ho, hc⟩ := h.brackets hv
  have hsolid : Solid (o :: (m ++ [c])) :=
    Solid.of_ends (by rcases ho with rfl | rfl <;> decide) (by rcases hc with rfl | rfl <;> decide) m
  rw [Argument.ofText, hsolid.trim, ofTrimmed_of_bracket ambient ho]

/-- Its strict form is what it becomes. -/
theorem Becomes.strictText {v : Json} {t s : List Char} (h : Becomes (.value v) t s)
    (ambient : Ambient) : strictText ambient t = .ok s := by
  have hrewritten := h ambient [] [] EndsValue.nil
  rw [List.append_nil, List.append_nil, rewritten_nil, List.reverse_reverse] at hrewritten
  rw [Mongo.strictText, show strictFrom ambient t.length [] t = .ok s from hrewritten]

/-- A relaxed container is read as the value that it writes. -/
theorem Relaxed.ofText {v : Json} {t : List Char} (h : Relaxed (.value v) t) (hv : IsContainer v)
    (hvalid : v.Valid) (hdepth : v.nesting ≤ Json.maxDepth) (ambient : Ambient) :
    Argument.ofText ambient t = .ok (Argument.ofJson v.reread) := by
  obtain ⟨s, hs, hb⟩ := h.becomes hvalid Json.maxDepth hdepth
  have hread : Json.read s = .ok v.reread := hs.readWithin
  rw [h.ofText_eq hv ambient, Argument.ofLiteral, hb.strictText ambient]
  simp only [hread]

end Polyshell.Mongo
