/-
  Texts that every pass over a command leaves in one piece.

  1. **The invariant** — `Keeps d s t s'`: scanning `t` leads from `s` to `s'`, and of what stands
     outside string literals in `t` nothing is blank or a parenthesis, no bracket closes below depth
     `d`, and commas are deeper than `d`.  It is a property of the text and the scan alone; no pass
     is mentioned.  `Passed true` is the same with blanks allowed, which matter to the normal form
     only.

  2. **The passes** — the normal form keeps such a text as it is (`collapse_keeps`); a call is not
     cut inside it (`insideCall_passed`); arguments are not cut inside it (`argumentPieces?_passed`).
     Each pass carries its own state, and each of these lemmas says what becomes of that.

  3. **The texts** — string literals (`keeps_quoted`), plain words and numbers (`keeps_plain`), and
     the compact form of any JSON value (`keeps_compactText`) are of that kind.
-/
import Polyshell.Mongo.Calls
import Polyshell.Proofs.Json.Reread
import Polyshell.Proofs.Mongo.Coercion

namespace Polyshell.Mongo

open Polyshell.Text
open Polyshell.Json (compactText compactItems compactMembers stringText)

/-! ## The invariant -/

/-- Outside every string literal, at depth `d`. -/
def Scan.at (d : Int) : Scan := ⟨none, false, d⟩

/-- What the passes may meet outside string literals; blanks when `b` is true. -/
def Scan.Passes (b : Bool) (d : Int) (s : Scan) (c : Char) : Prop :=
  s.structural c = true → (isBlank c = false ∨ b = true) ∧ c ≠ '(' ∧ c ≠ ')' ∧
    d ≤ (s.next c).depth ∧ (c = ',' → d < (s.next c).depth)

/-- Every character of the text passes, and the scan ends in `s'`. -/
def Passed (b : Bool) (d : Int) : Scan → List Char → Scan → Prop
  | s, [], s' => s = s'
  | s, c :: r, s' => s.Passes b d c ∧ Passed b d (s.next c) r s'

/-- The same without blanks. -/
abbrev Keeps (d : Int) := Passed false d

namespace Passed

theorem nil (b : Bool) (d : Int) (s : Scan) : Passed b d s [] s := rfl

theorem append {b : Bool} {d : Int} {a r : List Char} {s s' s'' : Scan} (ha : Passed b d s a s')
    (hb : Passed b d s' r s'') : Passed b d s (a ++ r) s'' := by
  induction a generalizing s with
  | nil =>
    obtain rfl : s = s' := ha
    exact hb
  | cons c r ih => exact ⟨ha.1, ih ha.2⟩

/-- What is kept at a depth is kept at every smaller one. -/
theorem weaken {b : Bool} {d d' : Int} (hd : d ≤ d') {t : List Char} {s s' : Scan}
    (h : Passed b d' s t s') : Passed b d s t s' := by
  induction t generalizing s with
  | nil => exact h
  | cons c r ih =>
    refine ⟨fun hc => ?_, ih h.2⟩
    obtain ⟨hblank, hopen, hclose, hdepth, hcomma⟩ := h.1 hc
    exact ⟨hblank, hopen, hclose, by omega, fun he => by have hlt := hcomma he; omega⟩

end Passed

/-! ## The passes -/

theorem collapse_keeps {d : Int} {t : List Char} (rest : List Char) {s s' : Scan}
    (h : Keeps d s t s') : collapse s false (t ++ rest) = t ++ collapse s' false rest := by
  induction t generalizing s with
  | nil =>
    obtain rfl : s = s' := h
    rfl
  | cons c r ih =>
    have hkeep : ¬ (s.structural c && isBlank c) = true := by
      rw [Bool.and_eq_true]
      rintro ⟨hs, hb⟩
      rw [(h.1 hs).1.resolve_right Bool.false_ne_true] at hb
      cases hb
    rw [List.cons_append, collapse, if_neg hkeep, if_neg Bool.false_ne_true, ih h.2,
      List.cons_append]

theorem insideCall_passed {b : Bool} {d : Int} (hd : 0 ≤ d) (whole : List Char) {t : List Char}
    (rest : List Char) {s s' : Scan} (opened : Bool) (seen : List Char) (h : Passed b d s t s') :
    insideCall whole s opened seen (t ++ rest) =
      insideCall whole s' opened (t.reverse ++ seen) rest := by
  induction t generalizing s seen with
  | nil =>
    obtain rfl : s = s' := h
    rfl
  | cons c r ih =>
    rw [List.reverse_cons, List.append_assoc, List.cons_append, insideCall]
    by_cases hs : s.structural c = true
    · obtain ⟨-, hopen, hclose, hdepth, -⟩ := h.1 hs
      rw [if_pos hs, if_neg (by omega), if_neg (by simp [hclose]), beq_false_of_ne hopen,
        Bool.or_false]
      exact ih (c :: seen) h.2
    · rw [if_neg hs]
      exact ih (c :: seen) h.2

theorem argumentPieces?_passed {b : Bool} {t : List Char} (rest : List Char) {s s' : Scan}
    (seen : List Char) (h : Passed b 0 s t s') :
    argumentPieces? s seen (t ++ rest) = argumentPieces? s' (t.reverse ++ seen) rest := by
  induction t generalizing s seen with
  | nil =>
    obtain rfl : s = s' := h
    rfl
  | cons c r ih =>
    have hnext := ih (c :: seen) h.2
    rw [List.reverse_cons, List.append_assoc, List.cons_append, argumentPieces?]
    by_cases hs : s.structural c = true
    · obtain ⟨-, -, -, hdepth, hcomma⟩ := h.1 hs
      -- a comma that is passed stands deeper than the arguments themselves
      have hcut : ¬ (s.structural c && decide (c = ',') && (s.next c).depth == 0) = true := by
        simp only [Bool.and_eq_true, decide_eq_true_eq, beq_iff_eq]
        rintro ⟨⟨-, hc⟩, hzero⟩
        have hlt := hcomma hc
        omega
      rw [if_neg (by simp only [Bool.and_eq_true, decide_eq_true_eq]; omega), if_neg hcut]
      exact hnext
    · rw [Bool.not_eq_true] at hs
      rw [hs, Bool.false_and, Bool.false_and, Bool.false_and, if_neg Bool.false_ne_true,
        if_neg Bool.false_ne_true]
      exact hnext

/-! ## Plain characters and brackets -/

/-- No quote, no bracket, no comma, and not blank. -/
def isPlain (c : Char) : Bool :=
  !Scan.isQuote c && !Scan.isOpening c && !Scan.isClosing c && !isBlank c && c != ','

theorem isPlain_spec {c : Char} (h : isPlain c = true) : Scan.isQuote c = false ∧
    Scan.isOpening c = false ∧ Scan.isClosing c = false ∧ isBlank c = false ∧ c ≠ ',' := by
  simp only [isPlain, Bool.and_eq_true, Bool.not_eq_true', bne_iff_ne] at h
  exact ⟨h.1.1.1.1, h.1.1.1.2, h.1.1.2, h.1.2, h.2⟩

/-- A plain text begins and ends with something that is not blank. -/
theorem Solid.of_plain {t : List Char} (hne : t ≠ []) (h : ∀ c ∈ t, isPlain c = true) : Solid t :=
  Solid.of_all hne fun c hc => (isPlain_spec (h c hc)).2.2.2.1

/-- A character that is neither a quote nor a bracket does not change the state. -/
theorem next_of_other {c : Char} (hq : Scan.isQuote c = false) (ho : Scan.isOpening c = false)
    (hc : Scan.isClosing c = false) (d : Int) : (Scan.at d).next c = Scan.at d := by
  rw [Scan.at, Scan.next]
  simp only [hq, ho, hc, Bool.false_eq_true, if_false]

theorem ne_paren_of_other {c : Char} (ho : Scan.isOpening c = false)
    (hc : Scan.isClosing c = false) : c ≠ '(' ∧ c ≠ ')' :=
  ⟨by rintro rfl; exact absurd ho (by decide), by rintro rfl; exact absurd hc (by decide)⟩

theorem keeps_plain {d e : Int} (hd : d ≤ e) {t : List Char} (h : ∀ c ∈ t, isPlain c = true) :
    Keeps d (Scan.at e) t (Scan.at e) := by
  induction t with
  | nil => exact Passed.nil _ _ _
  | cons c r ih =>
    obtain ⟨hq, ho, hc, hb, hcomma⟩ := isPlain_spec (h c List.mem_cons_self)
    obtain ⟨hopen, hclose⟩ := ne_paren_of_other ho hc
    have hnext := next_of_other hq ho hc e
    refine ⟨fun _ => ⟨Or.inl hb, hopen, hclose, ?_, fun he => absurd he hcomma⟩, ?_⟩
    · rw [hnext]
      exact hd
    · rw [hnext]
      exact ih fun x hx => h x (List.mem_cons_of_mem c hx)

/-- A plain word that is known. -/
theorem keeps_word {d e : Int} (hd : d ≤ e) {t : List Char} (h : t.all isPlain = true) :
    Keeps d (Scan.at e) t (Scan.at e) :=
  keeps_plain hd (List.all_eq_true.mp h)

/-- A comma inside a bracket. -/
theorem keeps_comma {d e : Int} (hd : d < e) : Keeps d (Scan.at e) [','] (Scan.at e) := by
  have hnext := next_of_other (show Scan.isQuote ',' = false by decide)
    (show Scan.isOpening ',' = false by decide) (show Scan.isClosing ',' = false by decide) e
  refine ⟨fun _ => ⟨by decide, by decide, by decide, ?_, fun _ => ?_⟩, hnext⟩
  · rw [hnext]
    exact Int.le_of_lt hd
  · rw [hnext]
    exact hd

/-- What is passed one deeper is passed between brackets. -/
theorem passed_brackets {b : Bool} {d : Int} {o c : Char} (ho : o = '[' ∨ o = '\x7b')
    (hc : c = ']' ∨ c = '\x7d') {t : List Char}
    (h : Passed b d (Scan.at (d + 1)) t (Scan.at (d + 1))) :
    Passed b d (Scan.at d) (o :: (t ++ [c])) (Scan.at d) := by
  have hopen : isBlank o = false ∧ o ≠ '(' ∧ o ≠ ')' ∧ o ≠ ',' := by
    rcases ho with rfl | rfl <;> decide
  have hclose : isBlank c = false ∧ c ≠ '(' ∧ c ≠ ')' ∧ c ≠ ',' := by
    rcases hc with rfl | rfl <;> decide
  have hdown : (Scan.at d).next o = Scan.at (d + 1) := by rcases ho with rfl | rfl <;> rfl
  have hup : (Scan.at (d + 1)).next c = Scan.at d := by
    have hback : d + 1 - 1 = d := Int.add_sub_cancel d 1
    rcases hc with rfl | rfl <;> exact congrArg (Scan.mk none false) hback
  refine ⟨fun _ => ⟨Or.inl hopen.1, hopen.2.1, hopen.2.2.1, ?_, fun he => absurd he hopen.2.2.2⟩, ?_⟩
  · rw [hdown]
    exact Int.le_of_lt (Int.lt_succ d)
  rw [hdown]
  refine h.append
    ⟨fun _ => ⟨Or.inl hclose.1, hclose.2.1, hclose.2.2.1, ?_, fun he => absurd he hclose.2.2.2⟩, hup⟩
  rw [hup]
  exact Int.le_refl d

/-! ## Blanks -/

/-- A blank opens and closes nothing. -/
theorem blank_other {c : Char} (h : isBlank c = true) : Scan.isQuote c = false ∧
    Scan.isOpening c = false ∧ Scan.isClosing c = false := by
  simp only [Scan.isQuote, Scan.isOpening, Scan.isClosing, Bool.or_eq_false_iff,
    decide_eq_false_iff_not]
  exact ⟨⟨ne_of_isBlank h (by decide), ne_of_isBlank h (by decide)⟩,
    ⟨⟨ne_of_isBlank h (by decide), ne_of_isBlank h (by decide)⟩, ne_of_isBlank h (by decide)⟩,
    ⟨⟨ne_of_isBlank h (by decide), ne_of_isBlank h (by decide)⟩, ne_of_isBlank h (by decide)⟩⟩

theorem next_blank {c : Char} (h : isBlank c = true) (d : Int) : (Scan.at d).next c = Scan.at d :=
  next_of_other (blank_other h).1 (blank_other h).2.1 (blank_other h).2.2 d

theorem structural_blank {c : Char} (h : isBlank c = true) (d : Int) :
    (Scan.at d).structural c = true := by
  rw [Scan.structural, (blank_other h).1]
  rfl

/-- The passes that cut read over blanks. -/
theorem passed_blanks {d e : Int} (hd : d ≤ e) {w : List Char} (hw : Blanks w) :
    Passed true d (Scan.at e) w (Scan.at e) := by
  induction w with
  | nil => exact Passed.nil _ _ _
  | cons c r ih =>
    have hc := hw c List.mem_cons_self
    refine ⟨fun _ => ⟨Or.inr rfl, ne_of_isBlank hc (by decide), ne_of_isBlank hc (by decide), ?_,
      fun he => absurd he (ne_of_isBlank hc (by decide))⟩, ?_⟩
    · rw [next_blank hc]
      exact hd
    · rw [next_blank hc]
      exact ih fun x hx => hw x (List.mem_cons_of_mem c hx)

/-! ## String literals -/

/-- What may stand between double quotes: characters as they are, and pairs with a backslash. -/
inductive Escaped : List Char → Prop
  | nil : Escaped []
  | raw {c : Char} {t : List Char} (hq : c ≠ '"') (hb : c ≠ '\\') (h : Escaped t) : Escaped (c :: t)
  | pair {c : Char} {t : List Char} (h : Escaped t) : Escaped ('\\' :: c :: t)

theorem Escaped.append {a b : List Char} (ha : Escaped a) (hb : Escaped b) : Escaped (a ++ b) := by
  induction ha with
  | nil => exact hb
  | raw hq hbs _ ih => exact .raw hq hbs ih
  | pair _ ih => exact .pair ih

/-- Inside the quotes no character is structural. -/
theorem Escaped.keeps {t : List Char} (h : Escaped t) (d e : Int) :
    Keeps d ⟨some '"', false, e⟩ (t ++ ['"']) (Scan.at e) := by
  induction h with
  | nil => exact ⟨fun hs => absurd hs Bool.false_ne_true, rfl⟩
  | @raw c t hq hb _ ih =>
    have hnext : Scan.next ⟨some '"', false, e⟩ c = ⟨some '"', false, e⟩ := by
      simp only [Scan.next, Bool.false_eq_true, if_false, if_neg hb, if_neg hq]
    refine ⟨fun hs => absurd hs Bool.false_ne_true, ?_⟩
    rw [hnext]
    exact ih
  | @pair c t _ ih =>
    refine ⟨fun hs => absurd hs Bool.false_ne_true, fun hs => absurd hs Bool.false_ne_true, ?_⟩
    exact ih

/-- A string literal is kept at any depth. -/
theorem keeps_quoted {t : List Char} (h : Escaped t) (d e : Int) :
    Keeps d (Scan.at e) ('"' :: (t ++ ['"'])) (Scan.at e) :=
  ⟨fun hs => absurd hs Bool.false_ne_true, h.keeps d e⟩

/-- Between quotes nothing is structural. -/
theorem keeps_quotes {q : Char} (hq : q = '"' ∨ q = '\'') {t : List Char}
    (ht : ∀ c ∈ t, c ≠ q ∧ c ≠ '\\') (d e : Int) :
    Keeps d (Scan.at e) (q :: (t ++ [q])) (Scan.at e) := by
  have hinside : Keeps d ⟨some q, false, e⟩ (t ++ [q]) (Scan.at e) := by
    induction t with
    | nil =>
      have hends : Scan.next ⟨some q, false, e⟩ q = Scan.at e := by
        rcases hq with rfl | rfl <;> rfl
      exact ⟨fun hs => absurd hs Bool.false_ne_true, hends⟩
    | cons c t ih =>
      obtain ⟨hc, hb⟩ := ht c List.mem_cons_self
      have hstays : Scan.next ⟨some q, false, e⟩ c = ⟨some q, false, e⟩ := by
        simp only [Scan.next, Bool.false_eq_true, if_false, if_neg hb, if_neg hc]
      refine ⟨fun hs => absurd hs Bool.false_ne_true, ?_⟩
      rw [hstays]
      exact ih fun x hx => ht x (List.mem_cons_of_mem c hx)
  have hopens : (Scan.at e).next q = ⟨some q, false, e⟩ := by rcases hq with rfl | rfl <;> rfl
  refine ⟨fun hs => ?_, hopens ▸ hinside⟩
  rcases hq with rfl | rfl <;> exact absurd hs Bool.false_ne_true

theorem escaped_escapeChar (c : Char) : Escaped (Json.escapeChar c) := by
  have hhex : ∀ n, n < 16 → Json.hexDigit n ≠ '"' ∧ Json.hexDigit n ≠ '\\' := by
    have hall : ∀ i : Fin 16, Json.hexDigit i.val ≠ '"' ∧ Json.hexDigit i.val ≠ '\\' := by decide
    exact fun n hn => hall ⟨n, hn⟩
  unfold Json.escapeChar
  split
  all_goals try exact .pair .nil
  rename_i hq hb _ _ _ _ _
  split
  · obtain ⟨hq₁, hb₁⟩ := hhex (c.toNat / 16) (by omega)
    obtain ⟨hq₂, hb₂⟩ := hhex (c.toNat % 16) (by omega)
    exact .pair (.raw (by decide) (by decide) (.raw (by decide) (by decide)
      (.raw hq₁ hb₁ (.raw hq₂ hb₂ .nil))))
  · exact .raw hq hb .nil

theorem keeps_stringText (s : String) (d e : Int) :
    Keeps d (Scan.at e) (stringText s) (Scan.at e) := by
  refine keeps_quoted ?_ d e
  induction s.toList with
  | nil => exact .nil
  | cons c r ih =>
    rw [List.flatMap_cons]
    exact (escaped_escapeChar c).append ih

/-! ## Compact JSON -/

theorem isPlain_of_isNumeralChar {c : Char} (h : Json.isNumeralChar c = true) :
    isPlain c = true := by
  simp only [Json.isNumeralChar, Bool.or_eq_true, decide_eq_true_eq] at h
  rcases h with ((((hd | rfl) | rfl) | rfl) | rfl) | rfl
  · have hdigit : ∀ i : Fin 10, isPlain (Char.ofNat (48 + i.val)) = true := by decide
    rw [Decimal.isDigit_iff] at hd
    have hc := hdigit ⟨c.toNat - 48, by omega⟩
    simp only [show 48 + (c.toNat - 48) = c.toNat by omega, Char.ofNat_toNat] at hc
    exact hc
  all_goals decide

/-- The colon behind a key, inside its braces. -/
theorem keeps_colon (d : Int) : Keeps d (Scan.at (d + 1)) [':'] (Scan.at (d + 1)) :=
  keeps_word (Int.le_of_lt (Int.lt_succ d)) (by decide)

mutual

theorem keeps_compactText : ∀ (v : Json), v.Valid → ∀ d : Int,
    Keeps d (Scan.at d) (compactText v) (Scan.at d)
  | .null, _, d => by
    rw [compactText]
    exact keeps_word (Int.le_refl d) (by decide)
  | .bool true, _, d => by
    rw [compactText]
    exact keeps_word (Int.le_refl d) (by decide)
  | .bool false, _, d => by
    rw [compactText]
    exact keeps_word (Int.le_refl d) (by decide)
  | .num n, h, d => by
    rw [Json.Valid] at h
    rw [compactText]
    exact keeps_plain (Int.le_refl d) fun c hc =>
      isPlain_of_isNumeralChar ((Json.Number.numeral_of_valid h).chars c hc)
  | .str s, _, d => by
    rw [compactText]
    exact keeps_stringText s d d
  | .arr items, h, d => by
    rw [Json.Valid] at h
    rw [compactText]
    exact passed_brackets (Or.inl rfl) (Or.inl rfl) (keeps_compactItems items h d)
  | .obj members, h, d => by
    rw [Json.Valid] at h
    rw [compactText]
    exact passed_brackets (Or.inr rfl) (Or.inr rfl) (keeps_compactMembers members h d)

theorem keeps_compactItems : ∀ (items : List Json), Json.ValidItems items → ∀ d : Int,
    Keeps d (Scan.at (d + 1)) (compactItems items) (Scan.at (d + 1))
  | [], _, d => by
    rw [compactItems]
    exact Passed.nil _ _ _
  | [v], h, d => by
    rw [Json.ValidItems] at h
    rw [compactItems]
    exact (keeps_compactText v h.1 (d + 1)).weaken (Int.le_of_lt (Int.lt_succ d))
  | v :: w :: r, h, d => by
    rw [Json.ValidItems] at h
    have hv := (keeps_compactText v h.1 (d + 1)).weaken (Int.le_of_lt (Int.lt_succ d))
    rw [compactItems]
    exact hv.append ((keeps_comma (Int.lt_succ d)).append (keeps_compactItems (w :: r) h.2 d))

theorem keeps_compactMembers : ∀ (members : List (String × Json)), Json.ValidMembers members →
    ∀ d : Int, Keeps d (Scan.at (d + 1)) (compactMembers members) (Scan.at (d + 1))
  | [], _, d => by
    rw [compactMembers]
    exact Passed.nil _ _ _
  | [(k, v)], h, d => by
    rw [Json.ValidMembers] at h
    have hv := (keeps_compactText v h.1 (d + 1)).weaken (Int.le_of_lt (Int.lt_succ d))
    rw [compactMembers]
    exact (keeps_stringText k d (d + 1)).append ((keeps_colon d).append hv)
  | (k, v) :: m :: r, h, d => by
    rw [Json.ValidMembers] at h
    have hv := (keeps_compactText v h.1 (d + 1)).weaken (Int.le_of_lt (Int.lt_succ d))
    rw [compactMembers]
    exact (keeps_stringText k d (d + 1)).append ((keeps_colon d).append
      (hv.append ((keeps_comma (Int.lt_succ d)).append (keeps_compactMembers (m :: r) h.2 d))))

end

end Polyshell.Mongo
