/-
  The texts that write a JSON value, and that the reader reads each of them as that value.

  1. **Grammar** — `Body s t`: the characters `s` stand as `t` between double quotes, each raw or
     escaped in any way that JSON has; the printer's way is one of them (`Body.escaped`).
     `Strict d part t`: `t` writes a value, the elements between the brackets of an array, or the
     members between the braces of an object, with any blanks of JSON between the tokens and at most
     `d` containers nested.  One inductive relation covers the three kinds of text (`Part`), so that
     one induction covers them too.

  2. **Reading** — `Strict.accepted`: the reader gives the value, and leaves what stands behind the
     text.  For elements and members the statement is about the loop behind the opening bracket;
     its fuel is the length of what it still has to read.

  The value that an object's text writes is filled by `Members.ofList`, as the reader does it: a
  key that comes twice keeps its first place.
-/
import Polyshell.Proofs.Json.Numeral

namespace Polyshell.Json

open Polyshell.Text.Utf8 (hexValue?)

/-! ## Blanks -/

/-- Blanks of JSON, and nothing else. -/
def Spaces (w : List Char) : Prop := ∀ c ∈ w, isSpace c = true

theorem Spaces.nil : Spaces [] := fun _ h => by cases h

/-- Blanks are skipped up to the character behind them. -/
theorem skipSpace_append {w : List Char} (hw : Spaces w) {c : Char} (hc : isSpace c = false)
    (r : List Char) : skipSpace (w ++ c :: r) = c :: r := by
  rw [skipSpace, List.dropWhile_append_of_pos hw, List.dropWhile_cons, hc,
    if_neg Bool.false_ne_true]

theorem skipSpace_of_solid {c : Char} (hc : isSpace c = false) (r : List Char) :
    skipSpace (c :: r) = c :: r :=
  skipSpace_append Spaces.nil hc r

theorem length_skipSpace_le (s : List Char) : (skipSpace s).length ≤ s.length :=
  (List.dropWhile_suffix _).length_le

theorem not_isNumeralChar_of_isSpace {c : Char} (h : isSpace c = true) : isNumeralChar c = false := by
  simp only [isSpace, Bool.or_eq_true, decide_eq_true_eq] at h
  rcases h with ((rfl | rfl) | rfl) | rfl <;> rfl

theorem not_isSpace_of_isNumeralChar {c : Char} (h : isNumeralChar c = true) : isSpace c = false := by
  cases hs : isSpace c with
  | false => rfl
  | true => rw [not_isNumeralChar_of_isSpace hs] at h; cases h

/-- A number ends at blanks, and at what cannot continue it behind them. -/
theorem EndsNumber.of_spaces {w r : List Char} (hw : Spaces w) (hr : EndsNumber r) :
    EndsNumber (w ++ r) := by
  cases w with
  | nil => exact hr
  | cons c w =>
    intro d s h
    obtain ⟨rfl, -⟩ := List.cons.inj h
    exact not_isNumeralChar_of_isSpace (hw c List.mem_cons_self)

theorem EndsNumber.cons {c : Char} (r : List Char) (h : isNumeralChar c = false) :
    EndsNumber (c :: r) := by
  intro d s hd
  obtain ⟨rfl, -⟩ := List.cons.inj hd
  exact h

/-! ## Strings -/

/-- The number that four hexadecimal digits write. -/
def Hex4 (a b c d : Char) (n : Nat) : Prop :=
  ∃ w x y z, hexValue? a = some w ∧ hexValue? b = some x ∧ hexValue? c = some y ∧
    hexValue? d = some z ∧ n = ((w * 16 + x) * 16 + y) * 16 + z

/-- `Escape c e` — `e` may stand behind a backslash for the character `c`. -/
inductive Escape : Char → List Char → Prop
  | quote : Escape '"' ['"']
  | backslash : Escape '\\' ['\\']
  | slash : Escape '/' ['/']
  | backspace : Escape '\x08' ['b']
  | formFeed : Escape '\x0c' ['f']
  | lineFeed : Escape '\n' ['n']
  | carriageReturn : Escape '\r' ['r']
  | tab : Escape '\t' ['t']
  /-- Four hexadecimal digits of either case, for a character that is one unit. -/
  | unit {a b c d : Char} {n : Nat} (h : Hex4 a b c d n) (hn : n < 0xD800 ∨ 0xDFFF < n) :
      Escape (Char.ofNat n) ['u', a, b, c, d]
  /-- A pair of surrogates. -/
  | pair {a b c d a' b' c' d' : Char} {n m : Nat} (h : Hex4 a b c d n) (h' : Hex4 a' b' c' d' m)
      (hn : 0xD800 ≤ n ∧ n ≤ 0xDBFF) (hm : 0xDC00 ≤ m ∧ m ≤ 0xDFFF) :
      Escape (Char.ofNat ((n - 0xD800) * 0x400 + (m - 0xDC00) + 0x10000))
        ['u', a, b, c, d, '\\', 'u', a', b', c', d']

/-- `Body s t` — the characters `s` stand as `t` between double quotes. -/
inductive Body : List Char → List Char → Prop
  | nil : Body [] []
  | raw {c : Char} {s t : List Char} (hc : 0x20 ≤ c.toNat) (hq : c ≠ '"') (hb : c ≠ '\\')
      (h : Body s t) : Body (c :: s) (c :: t)
  | escape {c : Char} {e s t : List Char} (he : Escape c e) (h : Body s t) :
      Body (c :: s) ('\\' :: (e ++ t))

theorem readHex4_of_hex4 {a b c d : Char} {n : Nat} (h : Hex4 a b c d n) (r : List Char) :
    readHex4 (a :: b :: c :: d :: r) = .ok (n, r) := by
  obtain ⟨w, x, y, z, ha, hb, hc, hd, rfl⟩ := h
  simp only [readHex4, ha, hb, hc, hd]

/-- An escape is read as its character. -/
theorem Escape.reads {c : Char} {e : List Char} (h : Escape c e) (r : List Char) :
    readEscape (e ++ r) = .ok (c, r) := by
  cases h with
  | @unit a b c d n h hn =>
    show readUnicodeEscape (a :: b :: c :: d :: r) = _
    simp only [readUnicodeEscape, readHex4_of_hex4 h, bind, Except.bind]
    rw [if_neg (by simp only [Bool.and_eq_true, decide_eq_true_eq]; omega),
      if_pos (by simp only [Bool.or_eq_true, decide_eq_true_eq]; omega)]
    rfl
  | @pair a b c d a' b' c' d' n m h h' hn hm =>
    show readUnicodeEscape (a :: b :: c :: d :: '\\' :: 'u' :: a' :: b' :: c' :: d' :: r) = _
    simp only [readUnicodeEscape, readHex4_of_hex4 h, readHex4_of_hex4 h', bind, Except.bind]
    rw [if_neg (by simp only [Bool.and_eq_true, decide_eq_true_eq]; omega),
      if_neg (by simp only [Bool.or_eq_true, decide_eq_true_eq]; omega),
      if_neg (by simp only [Bool.or_eq_true, decide_eq_true_eq]; omega)]
    rfl
  | _ => rfl

/-- The characters between double quotes are read up to the closing one. -/
theorem Body.reads {s t : List Char} (h : Body s t) (r : List Char) :
    ∀ fuel, t.length < fuel → readString fuel (t ++ '"' :: r) = .ok (s, r) := by
  induction h with
  | nil =>
    intro fuel hf
    obtain ⟨fuel, rfl⟩ := Nat.exists_eq_succ_of_ne_zero (Nat.pos_iff_ne_zero.mp hf)
    rfl
  | raw hc hq hb h ih =>
    intro fuel hf
    rw [List.length_cons] at hf
    obtain ⟨fuel, rfl⟩ := Nat.exists_eq_succ_of_ne_zero (show fuel ≠ 0 by omega)
    rw [List.cons_append, readString, if_neg hq, if_neg hb, if_neg (by omega), ih fuel (by omega)]
    rfl
  | escape he h ih =>
    intro fuel hf
    rw [List.length_cons, List.length_append] at hf
    obtain ⟨fuel, rfl⟩ := Nat.exists_eq_succ_of_ne_zero (show fuel ≠ 0 by omega)
    rw [List.cons_append, List.append_assoc, readString, if_neg (by decide), if_pos rfl, he.reads]
    simp only [bind, Except.bind]
    rw [ih fuel (by omega)]
    rfl

/-- The closing quote is where it is, whatever follows. -/
theorem Body.append_inj {s s' t t' r r' : List Char} (h : Body s t) (h' : Body s' t')
    (heq : t ++ '"' :: r = t' ++ '"' :: r') : s = s' ∧ r = r' := by
  have hread := h.reads r (t.length + t'.length + 1) (by omega)
  rw [heq, h'.reads r' _ (by omega), Except.ok.injEq, Prod.mk.injEq] at hread
  exact ⟨hread.1.symm, hread.2.symm⟩

/-! ## Printed strings -/

/-- The printer's hexadecimal digits are read. -/
theorem hexValue?_hexDigit {n : Nat} (h : n < 16) :
    hexValue? (hexDigit n) = some n := by
  have hall : ∀ i : Fin 16, hexValue? (hexDigit i.val) = some i.val := by decide
  exact hall ⟨n, h⟩

/-- A character as the printer writes it stands for itself. -/
theorem Body.escapeChar (c : Char) {s t : List Char} (h : Body s t) :
    Body (c :: s) (Json.escapeChar c ++ t) := by
  unfold Json.escapeChar
  split
  · exact .escape .quote h
  · exact .escape .backslash h
  · exact .escape .lineFeed h
  · exact .escape .carriageReturn h
  · exact .escape .tab h
  · exact .escape .backspace h
  · exact .escape .formFeed h
  · rename_i hq hb _ _ _ _ _
    by_cases hc : c.toNat < 0x20
    · rw [if_pos hc]
      have hx : Hex4 '0' '0' (hexDigit (c.toNat / 16)) (hexDigit (c.toNat % 16)) c.toNat :=
        ⟨0, 0, c.toNat / 16, c.toNat % 16, rfl, rfl, hexValue?_hexDigit (by omega),
          hexValue?_hexDigit (by omega), by omega⟩
      have he := Escape.unit hx (Or.inl (by omega))
      rw [Char.ofNat_toNat] at he
      exact .escape he h
    · rw [if_neg hc]
      exact .raw (by omega) hq hb h

theorem Body.escaped (s : List Char) : Body s (s.flatMap Json.escapeChar) := by
  induction s with
  | nil => exact .nil
  | cons c s ih =>
    rw [List.flatMap_cons]
    exact Body.escapeChar c ih

/-- A printed string ends where it ends, whatever follows. -/
theorem stringText_append_inj {s s' : String} {r r' : List Char}
    (h : stringText s ++ r = stringText s' ++ r') : s = s' ∧ r = r' := by
  have htext : ∀ (s : String) (r : List Char),
      stringText s ++ r = '"' :: (s.toList.flatMap escapeChar ++ '"' :: r) := fun s r => by
    rw [stringText, List.cons_append, List.append_assoc, List.singleton_append]
  rw [htext, htext, List.cons_inj_right] at h
  obtain ⟨hs, hr⟩ := (Body.escaped s.toList).append_inj (Body.escaped s'.toList) h
  exact ⟨String.toList_inj.mp hs, hr⟩

/-! ## Values -/

/-- What a text may write: a value, or what stands between the brackets of a container. -/
inductive Part where
  | value (v : Json)
  | items (vs : List Json)
  | members (ms : List (String × Json))

/-- `Strict d p t` — `t` writes `p` in JSON, with at most `d` containers nested. -/
inductive Strict : Nat → Part → List Char → Prop
  | null {d : Nat} : Strict d (.value .null) ['n', 'u', 'l', 'l']
  | isTrue {d : Nat} : Strict d (.value (.bool true)) ['t', 'r', 'u', 'e']
  | isFalse {d : Nat} : Strict d (.value (.bool false)) ['f', 'a', 'l', 's', 'e']
  | num {d : Nat} {n : Number} {t : List Char} (h : Numeral t n) : Strict d (.value (.num n)) t
  | str {d : Nat} {s t : List Char} (h : Body s t) :
      Strict d (.value (.str (String.ofList s))) ('"' :: (t ++ ['"']))
  | noItems {d : Nat} {w : List Char} (hw : Spaces w) :
      Strict (d + 1) (.value (.arr [])) ('[' :: (w ++ [']']))
  | arr {d : Nat} {vs : List Json} {t : List Char} (h : Strict d (.items vs) t) :
      Strict (d + 1) (.value (.arr vs)) ('[' :: (t ++ [']']))
  | noMembers {d : Nat} {w : List Char} (hw : Spaces w) :
      Strict (d + 1) (.value (.obj [])) ('\x7b' :: (w ++ ['\x7d']))
  | obj {d : Nat} {ms : List (String × Json)} {t : List Char} (h : Strict d (.members ms) t) :
      Strict (d + 1) (.value (.obj (Members.ofList ms))) ('\x7b' :: (t ++ ['\x7d']))
  | lastItem {d : Nat} {v : Json} {w t w' : List Char} (hw : Spaces w) (h : Strict d (.value v) t)
      (hw' : Spaces w') : Strict d (.items [v]) (w ++ (t ++ w'))
  | item {d : Nat} {v : Json} {vs : List Json} {w t w' ts : List Char} (hw : Spaces w)
      (h : Strict d (.value v) t) (hw' : Spaces w') (hs : Strict d (.items vs) ts) :
      Strict d (.items (v :: vs)) (w ++ (t ++ (w' ++ ',' :: ts)))
  | lastMember {d : Nat} {k : List Char} {v : Json} {w tk w₁ w₂ t w' : List Char} (hw : Spaces w)
      (hk : Body k tk) (hw₁ : Spaces w₁) (hw₂ : Spaces w₂) (h : Strict d (.value v) t)
      (hw' : Spaces w') :
      Strict d (.members [(String.ofList k, v)])
        (w ++ '"' :: (tk ++ '"' :: (w₁ ++ ':' :: (w₂ ++ (t ++ w')))))
  | member {d : Nat} {k : List Char} {v : Json} {ms : List (String × Json)}
      {w tk w₁ w₂ t w' ts : List Char} (hw : Spaces w) (hk : Body k tk) (hw₁ : Spaces w₁)
      (hw₂ : Spaces w₂) (h : Strict d (.value v) t) (hw' : Spaces w')
      (hs : Strict d (.members ms) ts) :
      Strict d (.members ((String.ofList k, v) :: ms))
        (w ++ '"' :: (tk ++ '"' :: (w₁ ++ ':' :: (w₂ ++ (t ++ (w' ++ ',' :: ts))))))

/-- What the reader must still see before it: a value starts with a character that is no blank and
    closes nothing. -/
theorem Strict.head {d : Nat} {v : Json} {t : List Char} (h : Strict d (.value v) t) :
    ∃ c r, t = c :: r ∧ isSpace c = false ∧ c ≠ ']' ∧ c ≠ '\x7d' := by
  cases h with
  | num h =>
    obtain ⟨c, r, ht, hc⟩ := h.head
    refine ⟨c, r, ht, ?_⟩
    rcases hc with rfl | hc
    · decide
    · refine ⟨?_, by rintro rfl; exact absurd hc (by decide), by rintro rfl; exact absurd hc (by decide)⟩
      exact not_isSpace_of_isNumeralChar (isNumeralChar_of_isDigit hc)
  | _ => exact ⟨_, _, rfl, by decide, by decide, by decide⟩

/-! ## Reading -/

theorem readValue_spaces {d : Nat} {w t : List Char} (hw : Spaces w)
    (ht : ∃ c r, t = c :: r ∧ isSpace c = false ∧ c ≠ ']' ∧ c ≠ '\x7d') (rest : List Char) :
    readValue d (w ++ (t ++ rest)) = readValue d (t ++ rest) := by
  obtain ⟨c, r, rfl, hc, -, -⟩ := ht
  exact readValue_skipSpace d (by
    rw [List.cons_append, skipSpace_append hw hc, skipSpace_of_solid hc])

theorem readValue_numeral {t : List Char} {n : Number} (h : Numeral t n) {rest : List Char}
    (hrest : EndsNumber rest) (d : Nat) : readValue d (t ++ rest) = .ok (.num n, rest) := by
  have hreads := readSigned_append hrest t n h.reads
  obtain ⟨c, r, rfl, hc⟩ := h.head
  rw [List.cons_append] at hreads ⊢
  rcases hc with rfl | hc
  · rw [readValue.eq_1, skipSpace_of_solid (by decide)]
    rw [show readSigned ('-' :: (r ++ rest)) = readNumber true (r ++ rest) from rfl] at hreads
    simp only [hreads]
    rfl
  · have hm : c ≠ '-' := by rintro rfl; exact absurd hc (by decide)
    have hs := not_isSpace_of_isNumeralChar (isNumeralChar_of_isDigit hc)
    rw [readSigned_of_ne_minus _ hm] at hreads
    rw [readValue.eq_1, skipSpace_of_solid hs]
    -- a digit is none of the characters that the other kinds of values start with
    split <;> rename_i heq <;> cases heq <;> try exact absurd hc (by decide)
    rw [if_pos hc, hreads]
    rfl

/-- How the reader takes a text that writes a part: as a value, or by the loop of a container. -/
def Accepted (d : Nat) : Part → List Char → Prop
  | .value v, t => ∀ rest, EndsNumber rest → readValue d (t ++ rest) = .ok (v, rest)
  | .items vs, t => ∀ rest fuel, (skipSpace (t ++ ']' :: rest)).length ≤ fuel →
      readElements (readValue d) fuel (skipSpace (t ++ ']' :: rest)) = .ok (vs, rest)
  | .members ms, t => ∀ rest fuel, (skipSpace (t ++ '\x7d' :: rest)).length ≤ fuel →
      readMembers (readValue d) fuel (skipSpace (t ++ '\x7d' :: rest)) = .ok (ms, rest)

/-- Elements start with a value, so the brackets around them are not empty. -/
theorem Strict.items_head {d : Nat} {vs : List Json} {t : List Char} (h : Strict d (.items vs) t)
    (rest : List Char) : ∃ c r, skipSpace (t ++ rest) = c :: r ∧ c ≠ ']' := by
  cases h with
  | lastItem hw h hw' =>
    obtain ⟨c, r, rfl, hs, hc, -⟩ := h.head
    exact ⟨c, _, by rw [List.append_assoc, List.cons_append, List.cons_append, skipSpace_append hw hs], hc⟩
  | item hw h hw' hs' =>
    obtain ⟨c, r, rfl, hs, hc, -⟩ := h.head
    exact ⟨c, _, by rw [List.append_assoc, List.cons_append, List.cons_append, skipSpace_append hw hs], hc⟩

/-- Members start with the quote of a key. -/
theorem Strict.members_head {d : Nat} {ms : List (String × Json)} {t : List Char}
    (h : Strict d (.members ms) t) (rest : List Char) :
    ∃ r, skipSpace (t ++ rest) = '"' :: r := by
  cases h with
  | lastMember hw => exact ⟨_, by rw [List.append_assoc, List.cons_append, skipSpace_append hw (by decide)]⟩
  | member hw => exact ⟨_, by rw [List.append_assoc, List.cons_append, skipSpace_append hw (by decide)]⟩

theorem Strict.accepted {d : Nat} {p : Part} {t : List Char} (h : Strict d p t) : Accepted d p t := by
  induction h with
  | null => intro rest _; rw [readValue.eq_1]; rfl
  | isTrue => intro rest _; rw [readValue.eq_1]; rfl
  | isFalse => intro rest _; rw [readValue.eq_1]; rfl
  | num h => intro rest hrest; exact readValue_numeral h hrest _
  | str h =>
    intro rest _
    rw [readValue.eq_1, List.cons_append, List.append_assoc, skipSpace_of_solid (by decide)]
    simp only [List.cons_append, List.nil_append]
    rw [h.reads rest _ (by simp only [List.length_append, List.length_cons]; omega)]
    rfl
  | noItems hw =>
    intro rest _
    rw [readValue.eq_1, List.cons_append, List.append_assoc, skipSpace_of_solid (by decide)]
    simp only [List.cons_append, List.nil_append, skipSpace_append hw (show isSpace ']' = false by decide)]
  | noMembers hw =>
    intro rest _
    rw [readValue.eq_1, List.cons_append, List.append_assoc, skipSpace_of_solid (by decide)]
    simp only [List.cons_append, List.nil_append,
      skipSpace_append hw (show isSpace '\x7d' = false by decide)]
  | arr h ih =>
    intro rest _
    obtain ⟨c, r, hhead, hc⟩ := h.items_head (']' :: rest)
    have hread := ih rest _ (Nat.le_refl _)
    rw [hhead] at hread
    rw [readValue.eq_1, List.cons_append, List.append_assoc, skipSpace_of_solid (by decide)]
    simp only [List.cons_append, List.nil_append, hhead]
    -- the reader looks for `]` first, and the text of an element does not begin with one
    split
    · cases ‹c :: r = []›
    · exact absurd (List.cons.inj ‹_›).1 hc
    · rw [hread]; rfl
  | obj h ih =>
    intro rest _
    obtain ⟨r, hhead⟩ := h.members_head ('\x7d' :: rest)
    have hread := ih rest _ (Nat.le_refl _)
    rw [hhead] at hread
    rw [readValue.eq_1, List.cons_append, List.append_assoc, skipSpace_of_solid (by decide)]
    simp only [List.cons_append, List.nil_append, hhead]
    split
    · cases ‹ '"' :: r = []›
    · exact absurd (List.cons.inj ‹_›).1 (by decide)
    · rw [hread]; rfl
  | lastItem hw h hw' ih =>
    intro rest fuel hf
    obtain ⟨c, r, rfl, hs, -, -⟩ := h.head
    have hread := ih _ (EndsNumber.of_spaces hw' (.cons rest (show isNumeralChar ']' = false by decide)))
    simp only [List.append_assoc, List.cons_append, skipSpace_append hw hs] at hf hread ⊢
    obtain ⟨fuel, rfl⟩ := Nat.exists_eq_succ_of_ne_zero (show fuel ≠ 0 by rintro rfl; cases hf)
    rw [readElements, hread]
    simp only [bind, Except.bind, skipSpace_append hw' (show isSpace ']' = false by decide)]
    rfl
  | @item d v vs w t w' ts hw h hw' hs' ih ih' =>
    intro rest fuel hf
    obtain ⟨c, r, rfl, hs, -, -⟩ := h.head
    obtain ⟨c', r', hhead, hc'⟩ := hs'.items_head (']' :: rest)
    have hread := ih _ (EndsNumber.of_spaces hw' (.cons (ts ++ ']' :: rest) (show isNumeralChar ',' = false by decide)))
    simp only [List.append_assoc, List.cons_append, skipSpace_append hw hs] at hf hread ⊢
    obtain ⟨fuel, rfl⟩ := Nat.exists_eq_succ_of_ne_zero (show fuel ≠ 0 by rintro rfl; cases hf)
    -- the fuel is the length of the text, and an element with its comma takes at least one of it
    have hshort := length_skipSpace_le (ts ++ ']' :: rest)
    have hnext := ih' rest fuel (by
      simp only [List.length_cons, List.length_append] at hf hshort ⊢; omega)
    rw [hhead] at hnext
    rw [readElements, hread]
    simp only [bind, Except.bind, skipSpace_append hw' (show isSpace ',' = false by decide), hhead]
    split
    · cases ‹c' :: r' = []›
    · exact absurd (List.cons.inj ‹_›).1 hc'
    · rw [hnext]; rfl
  | @lastMember d k v w tk w₁ w₂ t w' hw hk hw₁ hw₂ h hw' ih =>
    intro rest fuel hf
    have hread := ih _ (EndsNumber.of_spaces hw' (.cons rest (show isNumeralChar '\x7d' = false by decide)))
    have hquote : isSpace '"' = false := by decide
    simp only [List.append_assoc, List.cons_append, skipSpace_append hw hquote] at hf ⊢
    obtain ⟨fuel, rfl⟩ := Nat.exists_eq_succ_of_ne_zero (show fuel ≠ 0 by rintro rfl; cases hf)
    rw [readMembers]
    simp only [bind, Except.bind]
    rw [hk.reads _ _ (by simp only [List.length_append, List.length_cons]; omega)]
    simp only [skipSpace_append hw₁ (show isSpace ':' = false by decide)]
    rw [readValue_spaces hw₂ h.head, hread]
    simp only [skipSpace_append hw' (show isSpace '\x7d' = false by decide)]
    rfl
  | @member d k v ms w tk w₁ w₂ t w' ts hw hk hw₁ hw₂ h hw' hs' ih ih' =>
    intro rest fuel hf
    obtain ⟨r', hhead⟩ := hs'.members_head ('\x7d' :: rest)
    have hread := ih _ (EndsNumber.of_spaces hw' (.cons (ts ++ '\x7d' :: rest) (show isNumeralChar ',' = false by decide)))
    have hquote : isSpace '"' = false := by decide
    simp only [List.append_assoc, List.cons_append, skipSpace_append hw hquote] at hf ⊢
    obtain ⟨fuel, rfl⟩ := Nat.exists_eq_succ_of_ne_zero (show fuel ≠ 0 by rintro rfl; cases hf)
    have hshort := length_skipSpace_le (ts ++ '\x7d' :: rest)
    have hnext := ih' rest fuel (by
      simp only [List.length_cons, List.length_append] at hf hshort ⊢; omega)
    rw [hhead] at hnext
    rw [readMembers]
    simp only [bind, Except.bind]
    rw [hk.reads _ _ (by simp only [List.length_append, List.length_cons]; omega)]
    simp only [skipSpace_append hw₁ (show isSpace ':' = false by decide)]
    rw [readValue_spaces hw₂ h.head, hread]
    simp only [skipSpace_append hw' (show isSpace ',' = false by decide), hhead]
    split
    · cases ‹ '"' :: r' = []›
    · exact absurd (List.cons.inj ‹_›).1 (by decide)
    · rw [hnext]; rfl

/-- A whole text that writes a value reads as it, within the depth. -/
theorem Strict.readWithin {d : Nat} {v : Json} {t : List Char} (h : Strict d (.value v) t) :
    readWithin d t = .ok v := by
  have hread := h.accepted [] EndsNumber.nil
  rw [List.append_nil] at hread
  rw [Json.readWithin, hread]
  rfl

end Polyshell.Json
