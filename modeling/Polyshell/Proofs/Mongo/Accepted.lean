/-
  What a text that is read as a literal looks like.

  The strict form of the text is JSON (`Strict`, by the exactness of the reader), and the text
  became it token by token (`Forward`).  So the text is found by going through the strict form:
  each part of it comes from a part of a `Literal`.

  1. **Strings** — what stands between two double quotes of the strict form was copied from between
     quotes of either kind (`exists_enclosed`), or is a word.

  2. **Numbers** — a run of the characters of numbers came from such characters and from calls
     that make numbers (`exists_parts`).  Where a call is not alone in the run, the run is `Glued`.

  3. **Objects from calls** — what an identifier or a date becomes is an object of its own
     (`eq_of_wrapped`): the strict form does not go on inside it.

  4. **The crux** — one induction over the strict form (`sourced_of_strict`); for the entries of a
     container the statement takes the closing bracket in, with the comma that was dropped in front
     of it.  A text that is accepted is a literal in which every liberty shows
     (`literal_of_accepted`), and there are texts in which one was taken (`glued_call_accepted`).
-/
import Polyshell.Proofs.Json.Exact
import Polyshell.Proofs.Mongo.Forward
import Polyshell.Proofs.Mongo.Grammar

namespace Polyshell.Mongo

open Polyshell.Text
open Polyshell.Json (Spaces isSpace isNumeralChar EndsNumber Body Escape Hex4 Numeral NumberText
  Strict)

/-! ## Strings -/

/-- `Fronted q x r y z` — the text `x` begins with something that may stand between quotes `q`, and
    the copy of what is behind it, with `y`, is `z`. -/
def Fronted (q : Char) (x r y z : List Char) : Prop :=
  ∃ f x' v', x = f ++ x' ∧ copyString q x' = (v', r) ∧ v' ++ y = z ∧
    ∀ b, Enclosed True q b → Enclosed True q (f ++ b)

theorem Fronted.escape {q c : Char} {e x v r y z : List Char} (he : Escape c e)
    (h : copyString q x = (v, r)) (hv : v ++ y = z) : Fronted q ('\\' :: (e ++ x)) r y z :=
  ⟨'\\' :: e, x, v, rfl, h, hv, fun _ hclosed => .escape he hclosed⟩

/-- `CopyTurn q x v r` — what the copy of `x` does first, between quotes `q`: it ends, or copies one
    character or escape and goes on. -/
inductive CopyTurn (q : Char) : List Char → List Char → List Char → Prop
  | ended : CopyTurn q [] ['"'] []
  | closed (r : List Char) : CopyTurn q (q :: r) ['"'] r
  | apostrophe {x s r : List Char} (h : copyString q x = (s, r)) :
      CopyTurn q ('\\' :: '\'' :: x) ('\'' :: s) r
  | escape {c : Char} {x s r : List Char} (h : copyString q x = (s, r)) :
      CopyTurn q ('\\' :: c :: x) ('\\' :: c :: s) r
  | quote {x s r : List Char} (hq : '"' ≠ q) (h : copyString q x = (s, r)) :
      CopyTurn q ('"' :: x) ('\\' :: '"' :: s) r
  | raw {c : Char} {x s r : List Char} (hq : c ≠ q) (hd : c ≠ '"') (hb : c = '\\' → x = [])
      (h : copyString q x = (s, r)) : CopyTurn q (c :: x) (c :: s) r

theorem CopyTurn.of_copied {q : Char} {x v r : List Char} (h : copyString q x = (v, r)) :
    CopyTurn q x v r := by
  unfold copyString at h
  split at h
  · cases h
    exact .ended
  · next c x' =>
    rcases hcopy : copyString q x' with ⟨s, r'⟩
    simp only [hcopy] at h
    obtain ⟨rfl, rfl⟩ := Prod.mk.inj h
    by_cases hc : c = '\''
    · rw [if_pos hc, hc]
      exact .apostrophe hcopy
    · rw [if_neg hc]
      exact .escape hcopy
  · next c x' hnot =>
    by_cases hq : c = q
    · rw [if_pos hq] at h
      cases h
      exact hq ▸ .closed _
    · rw [if_neg hq] at h
      rcases hcopy : copyString q x' with ⟨s, r'⟩
      simp only [hcopy] at h
      obtain ⟨rfl, rfl⟩ := Prod.mk.inj h
      by_cases hd : c = '"'
      · subst hd
        exact .quote hq hcopy
      · rw [if_neg hd]
        refine .raw hq hd (fun hb => ?_) hcopy
        cases x' with
        | nil => rfl
        | cons d x' => exact absurd rfl (hnot d x' hb)

section Copies

variable {q : Char} {x v r y z : List Char} (h : copyString q x = (v, r))
include h

/-- Where a quote was copied, the string ended: with its own quote, or with the text. -/
theorem end_of_copied (hv : v ++ y = '"' :: z) : y = z ∧ (x = q :: r ∨ r = []) := by
  cases CopyTurn.of_copied h with
  | ended => exact ⟨(List.cons.inj hv).2, Or.inr rfl⟩
  | closed => exact ⟨(List.cons.inj hv).2, Or.inl rfl⟩
  | raw hq hd => exact absurd (List.cons.inj hv).1 hd
  | apostrophe | escape | quote => exact absurd (List.cons.inj hv).1 (by decide)

/-- A character that was copied without a backslash stood there without one, unless it is a single
    quote. -/
theorem char_of_copied {c : Char} (hb : c ≠ '\\') (hd : c ≠ '"') (hv : v ++ y = c :: z) :
    ∃ x' v', copyString q x' = (v', r) ∧ z = v' ++ y ∧
      ((x = c :: x' ∧ c ≠ q) ∨ (c = '\'' ∧ x = '\\' :: '\'' :: x')) := by
  cases CopyTurn.of_copied h with
  | ended | closed => exact absurd (List.cons.inj hv).1.symm hd
  | @apostrophe x' s _ h' =>
    obtain ⟨rfl, rfl⟩ := List.cons.inj hv
    exact ⟨x', s, h', rfl, Or.inr ⟨rfl, rfl⟩⟩
  | escape | quote => exact absurd (List.cons.inj hv).1.symm hb
  | @raw _ x' s _ hq _ _ h' =>
    obtain ⟨rfl, rfl⟩ := List.cons.inj hv
    exact ⟨x', s, h', rfl, Or.inl ⟨rfl, hq⟩⟩

/-- An escape that was copied stood there; or it is that of a double quote, which stood there
    without the backslash, or is the end of a string that was not closed. -/
theorem escape_of_copied {c : Char} (hv : v ++ y = '\\' :: c :: z) :
    (∃ x' v', copyString q x' = (v', r) ∧ z = v' ++ y ∧
      (x = '\\' :: c :: x' ∨ (c = '"' ∧ c ≠ q ∧ x = c :: x'))) ∨
    (c = '"' ∧ r = [] ∧ y = z) := by
  cases CopyTurn.of_copied h with
  | ended | closed | apostrophe => exact absurd (List.cons.inj hv).1 (by decide)
  | @escape _ x' s _ h' =>
    obtain ⟨rfl, rfl⟩ := List.cons.inj (List.cons.inj hv).2
    exact Or.inl ⟨x', s, h', rfl, Or.inl rfl⟩
  | @quote x' s _ hq h' =>
    obtain ⟨rfl, rfl⟩ := List.cons.inj (List.cons.inj hv).2
    exact Or.inl ⟨x', s, h', rfl, Or.inr ⟨rfl, hq, rfl⟩⟩
  | raw hq hd hb h' =>
    -- a backslash by itself: nothing follows it
    obtain ⟨hc, htail⟩ := List.cons.inj hv
    obtain rfl := hb hc
    cases h'
    obtain ⟨rfl, rfl⟩ := List.cons.inj htail
    exact Or.inr ⟨rfl, rfl, rfl⟩

/-- Four hexadecimal digits that were copied stood there. -/
theorem hex4_of_copied {a b c d : Char} {n : Nat} (hx : Hex4 a b c d n)
    (hv : v ++ y = a :: b :: c :: d :: z) :
    ∃ x' v', copyString q x' = (v', r) ∧ z = v' ++ y ∧ x = a :: b :: c :: d :: x' := by
  have hdigit : ∀ {x v : List Char} {e : Char} {k : Nat} {z : List Char},
      copyString q x = (v, r) → Utf8.hexValue? e = some k → v ++ y = e :: z →
        ∃ x' v', copyString q x' = (v', r) ∧ v' ++ y = z ∧ x = e :: x' := by
    intro x v e k z h he hv
    obtain ⟨hb, hd, hs⟩ := plain_of_hexValue? he
    obtain ⟨x', v', h', hz, ⟨hx, -⟩ | ⟨hc, -⟩⟩ := char_of_copied h hb hd hv
    · exact ⟨x', v', h', hz.symm, hx⟩
    · exact absurd hc hs
  obtain ⟨w₁, w₂, w₃, w₄, ha, hb, hc, hd, -⟩ := hx
  obtain ⟨x₁, v₁, h₁, hv₁, rfl⟩ := hdigit h ha hv
  obtain ⟨x₂, v₂, h₂, hv₂, rfl⟩ := hdigit h₁ hb hv₁
  obtain ⟨x₃, v₃, h₃, hv₃, rfl⟩ := hdigit h₂ hc hv₂
  obtain ⟨x₄, v₄, h₄, hv₄, rfl⟩ := hdigit h₃ hd hv₃
  exact ⟨x₄, v₄, h₄, hv₄.symm, rfl⟩

theorem raw_of_copied {c : Char} (hc : 0x20 ≤ c.toNat) (hb : c ≠ '\\') (hd : c ≠ '"')
    (hv : v ++ y = c :: z) : Fronted q x r y z := by
  obtain ⟨x', v', h', hz, ⟨rfl, hq⟩ | ⟨-, rfl⟩⟩ := char_of_copied h hb hd hv
  · exact ⟨[c], x', v', rfl, h', hz.symm, fun b hclosed => .raw hc hq hb hclosed⟩
  · exact ⟨['\\', '\''], x', v', rfl, h', hz.symm, fun b => .quote (Or.inr trivial)⟩

/-- An escape of one character. -/
theorem short_of_copied {c d : Char} (he : Escape c [d]) (hv : v ++ y = '\\' :: d :: z) :
    Fronted q x r y z ∨ (r = [] ∧ y = z) := by
  rcases escape_of_copied h hv with ⟨x', v', h', hz, hx⟩ | ⟨-, hr, hy⟩
  · left
    rcases hx with rfl | ⟨rfl, hq, rfl⟩
    · exact .escape he h' hz.symm
    · exact ⟨['"'], x', v', rfl, h', hz.symm, fun b hclosed =>
        .raw (by decide) hq (by decide) hclosed⟩
  · exact Or.inr ⟨hr, hy⟩

/-- The escape of a unit, with its digits. -/
theorem unit_of_copied {a b c d : Char} {n : Nat} (hx : Hex4 a b c d n)
    (hv : v ++ y = '\\' :: 'u' :: a :: b :: c :: d :: z) :
    ∃ x' v', copyString q x' = (v', r) ∧ v' ++ y = z ∧
      x = '\\' :: 'u' :: a :: b :: c :: d :: x' := by
  rcases escape_of_copied h hv with ⟨x', v', h', hz, hx'⟩ | ⟨hu, -⟩
  · obtain ⟨x'', v'', h'', hz', rfl⟩ := hex4_of_copied h' hx hz.symm
    rcases hx' with rfl | ⟨hu, -⟩
    · exact ⟨x'', v'', h'', hz'.symm, rfl⟩
    · exact absurd hu (by decide)
  · exact absurd hu (by decide)

/-- An escape of JSON. -/
theorem front_of_copied {c : Char} {e : List Char} (he : Escape c e)
    (hv : v ++ y = '\\' :: (e ++ z)) : Fronted q x r y z ∨ (r = [] ∧ y = z) := by
  have hfront := he
  cases he with
  | unit hx hn =>
    obtain ⟨x', v', h', hz, rfl⟩ := unit_of_copied h hx hv
    exact Or.inl (.escape hfront h' hz)
  | pair hx hx' hn hm =>
    obtain ⟨x', v', h', hz, rfl⟩ := unit_of_copied h hx hv
    obtain ⟨x'', v'', h'', hz', rfl⟩ := unit_of_copied h' hx' hz
    exact Or.inl (.escape hfront h'' hz')
  | _ => exact short_of_copied h hfront hv

end Copies

/-- What was copied up to a double quote stands between quotes `q`, unless the text ended first. -/
theorem exists_enclosed {q : Char} {s t : List Char} (hbody : Body s t) :
    ∀ {x v r y z : List Char}, copyString q x = (v, r) → v ++ y = t ++ '"' :: z →
      (∃ b, x = b ++ q :: r ∧ Enclosed True q b ∧ y = z) ∨ (r = [] ∧ (y = [] → z = [])) := by
  -- behind what stands in front, the string goes on
  have hcons : ∀ {t x r y z : List Char}, (∀ {x v r y z : List Char}, copyString q x = (v, r) →
        v ++ y = t ++ '"' :: z → (∃ b, x = b ++ q :: r ∧ Enclosed True q b ∧ y = z) ∨
          (r = [] ∧ (y = [] → z = []))) → Fronted q x r y (t ++ '"' :: z) →
      (∃ b, x = b ++ q :: r ∧ Enclosed True q b ∧ y = z) ∨ (r = [] ∧ (y = [] → z = [])) := by
    rintro t x r y z ih ⟨f, x', v', rfl, h', hv', hfront⟩
    rcases ih h' hv' with ⟨b, rfl, hclosed, rfl⟩ | hopen
    · exact Or.inl ⟨f ++ b, by rw [List.append_assoc], hfront b hclosed, rfl⟩
    · exact Or.inr hopen
  induction hbody with
  | nil =>
    intro x v r y z h hv
    obtain ⟨rfl, hx | hr⟩ := end_of_copied h hv
    · exact Or.inl ⟨[], hx, .nil, rfl⟩
    · exact Or.inr ⟨hr, id⟩
  | raw hc hd hb _ ih =>
    intro x v r y z h hv
    exact hcons ih (raw_of_copied h hc hb hd hv)
  | @escape c e s t he _ ih =>
    intro x v r y z h hv
    rw [List.cons_append, List.append_assoc] at hv
    rcases front_of_copied h he hv with hfront | ⟨hr, rfl⟩
    · exact hcons ih hfront
    · exact Or.inr ⟨hr, fun hnone => by cases t <;> cases hnone⟩

section Tokens

variable {ambient : Ambient} {rest s' : List Char}

/-- A text between double quotes was a string, or a word in front of a colon. -/
theorem quoted_of_forward {k tk : List Char} (hbody : Body k tk) (hs : s' ≠ [])
    (h : Forward ambient rest ('"' :: (tk ++ '"' :: s'))) :
    ∃ t r, rest = t ++ r ∧ Forward ambient r s' ∧ (StringText True t ∨
      (t ≠ [] ∧ (∀ c ∈ t, isWordChar c = true) ∧ (trimStart s').head? = some ':')) := by
  rcases h.quote with ⟨q, b, r, v, s₂, hq, rfl, hcopy, hv, hnext⟩ |
    ⟨w, r, s₂, hne, hw, rfl, hv, hcolon, hnext⟩
  · rcases exists_enclosed hbody hcopy hv.symm with ⟨b', hb, hclosed, rfl⟩ | ⟨rfl, hopen⟩
    · refine ⟨q :: (b' ++ [q]), r, ?_, hnext, Or.inl (.mk hq hclosed)⟩
      rw [hb, List.cons_append, List.append_assoc, List.singleton_append]
    · exact absurd (hopen hnext.eq_nil) hs
  · obtain ⟨-, rfl⟩ := hbody.append_inj (body_of_word hw) hv
    exact ⟨w, r, rfl, hnext, Or.inr ⟨hne, hw, hnext.colon hcolon⟩⟩

theorem key_of_forward {k tk : List Char} (hbody : Body k tk) (hs : s' ≠ [])
    (h : Forward ambient rest ('"' :: (tk ++ '"' :: s'))) :
    ∃ t r, rest = t ++ r ∧ Forward ambient r s' ∧ KeyText True t := by
  obtain ⟨t, r, hrest, hnext, hstring | ⟨hne, hw, -⟩⟩ := quoted_of_forward hbody hs h
  · exact ⟨t, r, hrest, hnext, .quoted hstring⟩
  · exact ⟨t, r, hrest, hnext, .bare hne hw⟩

theorem string_of_forward {k tk : List Char} (hbody : Body k tk) (hs : s' ≠ [])
    (hend : EndsValue s') (h : Forward ambient rest ('"' :: (tk ++ '"' :: s'))) :
    ∃ t r, rest = t ++ r ∧ Forward ambient r s' ∧ StringText True t := by
  obtain ⟨t, r, hrest, hnext, hstring | ⟨-, -, hcolon⟩⟩ := quoted_of_forward hbody hs h
  · exact ⟨t, r, hrest, hnext, hstring⟩
  · exact absurd hcolon hend.not_colon

/-! ## Words and numbers -/

/-- What is made of characters `p`, and the longest such text at the front of a text. -/
theorem exists_of_run {p : Char → Bool} {t v s₂ : List Char} (hv : ∀ c ∈ v, p c = true)
    (hs : ∀ c r, s' = c :: r → p c = false) (h : t ++ s' = v ++ s₂) :
    ∃ x, t = v ++ x ∧ s₂ = x ++ s' := by
  rcases List.append_eq_append_iff.mp h with ⟨x, hx, hs'⟩ | ⟨x, hx, hs₂⟩
  · cases x with
    | nil => exact ⟨[], by rw [hx, List.append_nil, List.append_nil], hs'.symm⟩
    | cons c x =>
      have hc := hv c (by rw [hx]; exact List.mem_append_right t List.mem_cons_self)
      rw [hs c _ hs'] at hc
      cases hc
  · exact ⟨x, hx, hs₂⟩

/-- A word was that word, or the absent value. -/
theorem word_of_forward {c : Char} {t : List Char} (ht : ∀ d ∈ c :: t, isWordChar d = true)
    (hd : Decimal.isDigit c = false) (hend : EndsWord s')
    (h : Forward ambient rest (c :: (t ++ s'))) :
    ∃ t₀ r, rest = t₀ ++ r ∧ Forward ambient r s' ∧ (t₀ = c :: t ∨
      (t₀ = ['u', 'n', 'd', 'e', 'f', 'i', 'n', 'e', 'd'] ∧ c :: t = ['n', 'u', 'l', 'l'])) := by
  obtain ⟨t₀, w, r, s₂, rfl, hsplit, hw, hr, hnext, hword⟩ :=
    h.letter (ht c List.mem_cons_self) hd
  obtain ⟨x, hx, hs₂⟩ := exists_of_run (t := c :: t) hw hend hsplit
  -- behind the word no other begins
  obtain rfl : x = [] := by
    cases x with
    | nil => rfl
    | cons e x =>
      have he := hnext.endsWord hr e _ hs₂
      rw [ht e (by rw [hx]; exact List.mem_append_right w List.mem_cons_self)] at he
      cases he
  rw [List.append_nil] at hx
  rw [hx]
  exact ⟨t₀, r, rfl, by rwa [hs₂] at hnext, hword⟩

theorem Parts.append_chars {a b : List Char} (ha : ∀ c ∈ a, isNumeralChar c = true)
    (hb : Parts b) : Parts (a ++ b) := by
  induction a with
  | nil => exact hb
  | cons c a ih =>
    exact .char (ha c List.mem_cons_self) (ih fun d hd => ha d (List.mem_cons_of_mem c hd))

/-- Characters of numbers and calls, with a call among them. -/
inductive WithCall : List Char → Prop
  | mk {con : Constructor} {arg a t b : List Char} (ha : Parts a) (hcon : con.IsNumber)
      (ht : ConstructorCall con arg t) (hb : Parts b) : WithCall (a ++ (t ++ b))

theorem WithCall.append_chars {a t : List Char} (ha : ∀ c ∈ a, isNumeralChar c = true)
    (h : WithCall t) : WithCall (a ++ t) := by
  obtain ⟨hb, hcon, ht, hc⟩ := h
  rw [← List.append_assoc]
  exact .mk (hb.append_chars ha) hcon ht hc

/-- A run of the characters of numbers stood there, or there were calls in it. -/
theorem exists_parts (hword : EndsWord s') (hnumber : EndsNumber s') :
    ∀ (n : Nat) (t rest : List Char), t.length ≤ n → (∀ c ∈ t, isNumeralChar c = true) →
      Forward ambient rest (t ++ s') →
        ∃ t₀ r, rest = t₀ ++ r ∧ Forward ambient r s' ∧ Parts t₀ ∧ (t₀ = t ∨ WithCall t₀) := by
  intro n
  induction n with
  | zero =>
    intro t rest hn _ h
    obtain rfl : t = [] := List.length_eq_zero_iff.mp (Nat.le_zero.mp hn)
    exact ⟨[], rest, rfl, h, .nil, Or.inl rfl⟩
  | succ n ih =>
    intro t rest hn ht h
    cases t with
    | nil => exact ⟨[], rest, rfl, h, .nil, Or.inl rfl⟩
    | cons c t =>
      have hfront : ∀ {a x r : List Char}, c :: t = a ++ x → a ≠ [] →
          Forward ambient r (x ++ s') → (∀ d ∈ a, isNumeralChar d = true) ∧
            ∃ t₀ r', r = t₀ ++ r' ∧ Forward ambient r' s' ∧ Parts t₀ ∧ (t₀ = x ∨ WithCall t₀) := by
        intro a x r hsplit hne hnext
        have hlen := congrArg List.length hsplit
        have hpos := List.length_pos_iff.mpr hne
        rw [List.length_append] at hlen
        exact ⟨fun d hd => ht d (by rw [hsplit]; exact List.mem_append_left x hd),
          ih x r (by omega)
            (fun d hd => ht d (by rw [hsplit]; exact List.mem_append_right a hd)) hnext⟩
      rcases h.numeral (ht c List.mem_cons_self) with
        ⟨w, r, s₂, rfl, hsplit, hne, hw, hnext⟩ |
        ⟨con, arg, t₁, r, v, s₂, hcon, hcall, ⟨hchars, d, v', hv, -⟩, rfl, hsplit, hnext⟩ |
        ⟨r, rfl, hnext⟩
      · obtain ⟨x, hx, rfl⟩ := exists_of_run (t := c :: t) hw hword hsplit
        obtain ⟨hchars, t₀, r', rfl, hnext', hparts, heq⟩ := hfront hx hne hnext
        refine ⟨w ++ t₀, r', (List.append_assoc ..).symm, hnext', hparts.append_chars hchars, ?_⟩
        rw [hx]
        exact heq.imp (congrArg (w ++ ·)) (·.append_chars hchars)
      · obtain ⟨x, hx, rfl⟩ := exists_of_run (t := c :: t) hchars hnumber hsplit
        obtain ⟨-, t₀, r', rfl, hnext', hparts, -⟩ :=
          hfront hx (by rw [hv]; exact List.cons_ne_nil d v') hnext
        exact ⟨t₁ ++ t₀, r', (List.append_assoc ..).symm, hnext', .call hcon hcall hparts,
          Or.inr (.mk .nil hcon hcall hparts)⟩
      · obtain ⟨hchars, t₀, r', rfl, hnext', hparts, heq⟩ :=
          hfront (a := [c]) rfl (List.cons_ne_nil c []) hnext
        exact ⟨[c] ++ t₀, r', rfl, hnext', hparts.append_chars hchars,
          heq.imp (congrArg ([c] ++ ·)) (·.append_chars hchars)⟩

/-- A call that has nothing around it, or a minus sign, is a value; any other is glued. -/
theorem WithCall.literal {t : List Char} (h : WithCall t) : Literal anyLiberty .value t := by
  obtain @⟨con, arg, a, t, b, ha, hcon, ht, hb⟩ := h
  by_cases hmore : b = [] → a ≠ [] ∧ a ≠ ['-']
  · exact .glued trivial (.mk ha hcon ht hb hmore)
  · obtain ⟨rfl, ha⟩ := Classical.not_imp.mp hmore
    rw [List.append_nil]
    by_cases hne : a = []
    · rw [hne]
      exact .call ht
    · obtain rfl : a = ['-'] := by
        by_contra hminus
        exact ha ⟨hne, hminus⟩
      exact .minusCall hcon ht

/-- A number was a number, or a value with calls. -/
theorem number_of_forward {t : List Char} {n : Json.Number} (ht : Numeral t n)
    (hword : EndsWord s') (hnumber : EndsNumber s') (h : Forward ambient rest (t ++ s')) :
    ∃ t₀ r, rest = t₀ ++ r ∧ Forward ambient r s' ∧ Literal anyLiberty .value t₀ := by
  obtain ⟨t₀, r, hrest, hnext, -, rfl | hcall⟩ :=
    exists_parts hword hnumber t.length t rest (Nat.le_refl _) ht.chars h
  · exact ⟨t₀, r, hrest, hnext, .number ht.numberText⟩
  · exact ⟨t₀, r, hrest, hnext, hcall.literal⟩

end Tokens

/-! ## Objects from calls -/

section Wrapped

variable {d : Nat} {key x r z : List Char}

/-- Blanks in front do not matter where there are none. -/
theorem cons_of_spaces {w r s : List Char} {c e : Char} (hw : Spaces w) (hc : isSpace c = false)
    (he : isSpace e = false) (h : w ++ c :: r = e :: s) : c :: r = e :: s := by
  rw [← Json.skipSpace_append hw hc, h, Json.skipSpace_of_solid he]

theorem NumeralLike.head_not_space {t : List Char} (h : NumeralLike t) :
    ∃ c r, t = c :: r ∧ isSpace c = false := by
  obtain ⟨hchars, c, r, rfl, -⟩ := h
  exact ⟨c, r, rfl, Json.not_isSpace_of_isNumeralChar (hchars c List.mem_cons_self)⟩

/-- A value that is a string or a number ends where its text ends. -/
theorem eq_of_value {v : Json} {t : List Char} (h : Strict d (.value v) t) (hr : EndsNumber r)
    (hx : (∃ s, x = Json.stringText s) ∨ NumeralLike x) (heq : t ++ r = x ++ '\x7d' :: z) :
    r = '\x7d' :: z := by
  have hread := h.accepted r hr
  have hends : EndsNumber ('\x7d' :: z) := .cons z rfl
  rcases hx with ⟨s, rfl⟩ | ⟨hchars, c, x', rfl, hc⟩
  · rw [heq, (strict_stringText d s).accepted _ hends] at hread
    exact (Prod.mk.inj (Except.ok.inj hread)).2.symm
  · rw [heq, List.cons_append] at hread
    obtain ⟨n, -, hn⟩ := Json.num_of_readValue hc hread
    obtain ⟨p, hp, hnumeral⟩ := Json.readSigned_takes hn
    obtain ⟨y, hy, hbehind⟩ := exists_of_run hchars hr (hp.symm.trans (List.cons_append).symm)
    cases y with
    | nil => exact hbehind.symm
    | cons e y =>
      -- the number would go on with a brace
      obtain ⟨rfl, -⟩ := List.cons.inj hbehind
      have he := hnumeral.chars '\x7d'
        (by rw [hy]; exact List.mem_append_right _ List.mem_cons_self)
      exact absurd he (by decide)

variable (hkey : Body key key) (hx : (∃ s, x = Json.stringText s) ∨ NumeralLike x)
include hkey hx

theorem eq_of_member {k w tk w₁ w₂ t : List Char} {v : Json} (hw : Spaces w) (hk : Body k tk)
    (hw₁ : Spaces w₁) (hw₂ : Spaces w₂) (h : Strict d (.value v) t) (hr : EndsNumber r)
    (heq : w ++ '"' :: (tk ++ '"' :: (w₁ ++ ':' :: (w₂ ++ (t ++ r)))) =
      '"' :: (key ++ '"' :: ':' :: (x ++ '\x7d' :: z))) : r = '\x7d' :: z := by
  obtain ⟨-, hbody⟩ := List.cons.inj (cons_of_spaces hw (by decide) (by decide) heq)
  obtain ⟨-, hcolon⟩ := hk.append_inj hkey hbody
  obtain ⟨-, hvalue⟩ := List.cons.inj (cons_of_spaces hw₁ (by decide) (by decide) hcolon)
  refine eq_of_value h hr hx ?_
  obtain ⟨c, t', rfl, hc, -, -⟩ := h.head
  obtain ⟨e, x', hcons, he⟩ : ∃ e x', x = e :: x' ∧ isSpace e = false := by
    rcases hx with ⟨s, rfl⟩ | hnumber
    · exact ⟨'"', _, rfl, by decide⟩
    · exact hnumber.head_not_space
  rw [hcons] at hvalue ⊢
  exact cons_of_spaces hw₂ hc he hvalue

/-- What a call becomes is an object of its own. -/
theorem eq_of_wrapped {v : Json} {t s' : List Char} (h : Strict d (.value v) t)
    (heq : t ++ s' = '\x7b' :: '"' :: (key ++ '"' :: ':' :: (x ++ '\x7d' :: z))) : s' = z := by
  have hbrace : ∀ {w : List Char}, Spaces w → w ++ '\x7d' :: s' = '\x7d' :: z → s' = z :=
    fun hw h => (List.cons.inj (cons_of_spaces hw (by decide) (by decide) h)).2
  cases h with
  | num h =>
    obtain ⟨c, r, rfl, hc⟩ := h.head
    obtain ⟨rfl, -⟩ := List.cons.inj heq
    rcases hc with hc | hc <;> exact absurd hc (by decide)
  | @noMembers _ w hw =>
    rw [List.cons_append, List.append_assoc] at heq
    have hquote := cons_of_spaces hw (by decide) (by decide) (List.cons.inj heq).2
    exact absurd (List.cons.inj hquote).1 (by decide)
  | obj h =>
    cases h with
    | @lastMember _ k v w tk w₁ w₂ t w' hw hk hw₁ hw₂ h hw' =>
      refine hbrace hw' (eq_of_member hkey hx hw hk hw₁ hw₂ h
        (EndsNumber.of_spaces hw' (.cons s' rfl)) ?_)
      simpa using heq
    | @member _ k v ms w tk w₁ w₂ t w' ts hw hk hw₁ hw₂ h hw' hs =>
      have hcomma := eq_of_member (r := w' ++ ',' :: (ts ++ '\x7d' :: s')) (z := z) hkey hx hw hk
        hw₁ hw₂ h (EndsNumber.of_spaces hw' (.cons _ rfl)) (by simpa using heq)
      have hnone := cons_of_spaces hw' (by decide) (by decide) hcomma
      exact absurd (List.cons.inj hnone).1 (by decide)
  | _ => exact absurd (List.cons.inj heq).1 (by decide)

end Wrapped

/-- An object was one, or a call. -/
theorem object_of_forward {ambient : Ambient} {d : Nat} {v : Json} {t rest s' : List Char}
    (h : Strict d (.value v) ('\x7b' :: t)) (hf : Forward ambient rest ('\x7b' :: (t ++ s'))) :
    (∃ r, rest = '\x7b' :: r ∧ Forward ambient r (t ++ s')) ∨
    ∃ t₀ r, rest = t₀ ++ r ∧ Forward ambient r s' ∧ Literal anyLiberty .value t₀ := by
  rcases hf.brace with hopen | ⟨con, arg, t₀, r, v, s₂, place, hcon, ht, hv, hrest, hs, hnext⟩
  · exact Or.inl hopen
  · obtain ⟨key, x, hmade, hkey, hx⟩ := Constructor.exists_wrapped hcon hv
    have heq : '\x7b' :: t ++ s' =
        '\x7b' :: '"' :: (key ++ '"' :: ':' :: (x ++ '\x7d' :: s₂)) := by
      rw [List.cons_append, hs, ← List.cons_append, hmade]
      simp
    obtain rfl := eq_of_wrapped hkey hx h heq
    exact Or.inr ⟨t₀, r, hrest, hnext, .call ht⟩

/-! ## Containers -/

theorem Container.isCloser (k : Container) : IsCloser k.closing := by
  cases k
  · exact Or.inr rfl
  · exact Or.inl rfl

/-- An empty container, with a comma in it or not. -/
theorem empty_literal (k : Container) {w u : List Char} (hw : Spaces w) (hu : Dropped u) :
    Literal anyLiberty .value (k.opening :: (w ++ (u ++ [k.closing]))) := by
  cases hu with
  | nothing => exact .empty k hw
  | comma hw' => exact .loneComma k trivial hw hw'

/-- A container with entries, and a comma behind the last of them or not. -/
theorem filled_literal {k : Container} {t u : List Char} (h : Literal anyLiberty (.entries k) t)
    (hu : Dropped u) : Literal anyLiberty .value (k.opening :: (t ++ (u ++ [k.closing]))) := by
  cases hu with
  | nothing => exact .filled h
  | @comma w hw =>
    by_cases hspaces : Spaces w
    · exact .comma h hspaces
    · exact .foreignBlank trivial h hw hspaces

/-- The text came from a value.  Behind a container anything may stand. -/
def ValueSourced (t : List Char) : Prop := ∀ ambient rest s', EndsValue s' →
  (Spaces s' → ∃ o r, (o = '[' ∨ o = '\x7b') ∧ t = o :: r) → Forward ambient rest (t ++ s') →
    ∃ t₀ r, rest = t₀ ++ r ∧ Forward ambient r s' ∧ Literal anyLiberty .value t₀

/-- The text, with the closing bracket, came from the entries of a container. -/
def EntriesSourced (k : Container) (t : List Char) : Prop := ∀ ambient rest s',
  Forward ambient rest (t ++ k.closing :: s') →
    ∃ t₀ u r, rest = t₀ ++ (u ++ k.closing :: r) ∧ Forward ambient r s' ∧
      Literal anyLiberty (.entries k) t₀ ∧ Dropped u

/-- What a text that writes a part came from. -/
def Sourced : Json.Part → List Char → Prop
  | .value _, t => ValueSourced t
  | .items _, t => EntriesSourced .array t
  | .members _, t => EntriesSourced .object t

section Entries

variable {ambient : Ambient} {rest z w t w' : List Char} (hw : Spaces w) (hw' : Spaces w')
include hw hw'

/-- An element, up to the mark behind it. -/
theorem element_of_forward {c : Char} (hc : c = ',' ∨ c = ']' ∨ c = '\x7d') (ht : ValueSourced t)
    (h : Forward ambient rest (w ++ (t ++ (w' ++ c :: z)))) :
    ∃ t₀ r, rest = w ++ (t₀ ++ (w' ++ r)) ∧ Forward ambient r (c :: z) ∧
      Literal anyLiberty .value t₀ := by
  obtain ⟨r, rfl, hvalue⟩ := h.spaces hw
  have hmark : ¬ Spaces (w' ++ c :: z) := by
    intro hspaces
    have hspace := hspaces c (List.mem_append_right w' List.mem_cons_self)
    rcases hc with rfl | rfl | rfl <;> exact absurd hspace (by decide)
  obtain ⟨t₀, r, rfl, hnext, hliteral⟩ :=
    ht ambient r _ (EndsValue.of_spaces hw' z hc) (fun hspaces => absurd hspaces hmark) hvalue
  obtain ⟨r, rfl, hbehind⟩ := hnext.spaces hw'
  exact ⟨t₀, r, rfl, hbehind, hliteral⟩

/-- A member, up to the mark behind it. -/
theorem member_of_forward {c : Char} (hc : c = ',' ∨ c = ']' ∨ c = '\x7d') (ht : ValueSourced t)
    {k tk w₁ w₂ : List Char} (hk : Body k tk) (hw₁ : Spaces w₁) (hw₂ : Spaces w₂)
    (h : Forward ambient rest
      (w ++ '"' :: (tk ++ '"' :: (w₁ ++ ':' :: (w₂ ++ (t ++ (w' ++ c :: z))))))) :
    ∃ t₀ r, rest = w ++ (t₀ ++ (w' ++ r)) ∧ Forward ambient r (c :: z) ∧
      Literal anyLiberty (.entry .object) t₀ := by
  obtain ⟨r, rfl, hkey⟩ := h.spaces hw
  obtain ⟨t₁, r, rfl, hbehind, hkeyText⟩ :=
    key_of_forward hk (List.append_ne_nil_of_right_ne_nil _ (List.cons_ne_nil _ _)) hkey
  obtain ⟨r, rfl, hcolon⟩ := hbehind.spaces hw₁
  obtain ⟨r, rfl, hvalue⟩ := hcolon.mark (by unfold IsMark; decide)
  obtain ⟨t₀, r, rfl, hnext, hliteral⟩ := element_of_forward hw₂ hw' hc ht hvalue
  refine ⟨t₁ ++ (w₁ ++ ':' :: (w₂ ++ t₀)), r, ?_, hnext, .member hkeyText hw₁ hw₂ hliteral⟩
  simp only [List.append_assoc, List.cons_append]

/-- The last entry. -/
theorem entries_last {k : Container} {t₀ : List Char} (h : Forward ambient rest (k.closing :: z))
    (ht : Literal anyLiberty (.entry k) t₀) :
    ∃ t₁ u r, w ++ (t₀ ++ (w' ++ rest)) = t₁ ++ (u ++ k.closing :: r) ∧ Forward ambient r z ∧
      Literal anyLiberty (.entries k) t₁ ∧ Dropped u := by
  obtain ⟨u, r, hu, rfl, hnext⟩ := h.closer k.isCloser
  exact ⟨w ++ (t₀ ++ w'), u, r, by simp only [List.append_assoc], hnext, .last hw ht hw', hu⟩

/-- An entry with more behind it. -/
theorem entries_more {k : Container} {t₀ ts : List Char} (hs : EntriesSourced k ts)
    (h : Forward ambient rest (',' :: (ts ++ k.closing :: z)))
    (ht : Literal anyLiberty (.entry k) t₀) :
    ∃ t₁ u r, w ++ (t₀ ++ (w' ++ rest)) = t₁ ++ (u ++ k.closing :: r) ∧ Forward ambient r z ∧
      Literal anyLiberty (.entries k) t₁ ∧ Dropped u := by
  obtain ⟨r, rfl, hmore⟩ := h.mark (by unfold IsMark; decide)
  obtain ⟨ts₀, u, r, rfl, hnext, hentries, hu⟩ := hs ambient r z hmore
  exact ⟨w ++ (t₀ ++ (w' ++ ',' :: ts₀)), u, r, by simp only [List.append_assoc, List.cons_append],
    hnext, .more hw ht hw' hentries, hu⟩

end Entries

/-! ## The crux -/

/-- A container was one, behind its opening bracket. -/
theorem container_of_forward {ambient : Ambient} {k : Container} {t r s' : List Char}
    (ht : EntriesSourced k t) (h : Forward ambient r (t ++ k.closing :: s')) :
    ∃ t₀ r', k.opening :: r = t₀ ++ r' ∧ Forward ambient r' s' ∧
      Literal anyLiberty .value t₀ := by
  obtain ⟨t₀, u, r, rfl, hnext, hentries, hu⟩ := ht ambient r s' h
  exact ⟨_, r, by simp, hnext, filled_literal hentries hu⟩

theorem empty_of_forward {ambient : Ambient} {k : Container} {w r s' : List Char} (hw : Spaces w)
    (h : Forward ambient r (w ++ k.closing :: s')) :
    ∃ t₀ r', k.opening :: r = t₀ ++ r' ∧ Forward ambient r' s' ∧
      Literal anyLiberty .value t₀ := by
  obtain ⟨r, rfl, hclose⟩ := h.spaces hw
  obtain ⟨u, r, hu, rfl, hnext⟩ := hclose.closer k.isCloser
  exact ⟨_, r, by simp, hnext, empty_literal k hw hu⟩

/-- A word of JSON came from itself, or from the absent value. -/
theorem valueSourced_of_word {c : Char} {t : List Char} (ht : ∀ d ∈ c :: t, isWordChar d = true)
    (hd : Decimal.isDigit c = false) (hliteral : Literal anyLiberty .value (c :: t)) :
    ValueSourced (c :: t) := by
  intro ambient rest s' hend _ h
  obtain ⟨t₀, r, hrest, hnext, rfl | ⟨rfl, -⟩⟩ := word_of_forward ht hd hend.endsWord h
  · exact ⟨_, r, hrest, hnext, hliteral⟩
  · exact ⟨_, r, hrest, hnext, .undefined⟩

theorem EndsValue.endsNumber {rest : List Char} (h : EndsValue rest) : EndsNumber rest := by
  intro c r hr
  rcases h.head hr with hs | rfl | rfl | rfl
  · exact Json.not_isNumeralChar_of_isSpace hs
  all_goals rfl

/-- **Every part of a strict form came from a part of a literal.** -/
theorem sourced_of_strict {d : Nat} {p : Json.Part} {t : List Char} (h : Strict d p t) :
    Sourced p t := by
  induction h with
  | null => exact valueSourced_of_word (List.all_eq_true.mp (by decide)) (by decide) .null
  | isTrue => exact valueSourced_of_word (List.all_eq_true.mp (by decide)) (by decide) .isTrue
  | isFalse => exact valueSourced_of_word (List.all_eq_true.mp (by decide)) (by decide) .isFalse
  | num h =>
    intro ambient rest s' hend _ hf
    exact number_of_forward h hend.endsWord hend.endsNumber hf
  | @str _ s t h =>
    intro ambient rest s' hend hopen hf
    have hne : s' ≠ [] := by
      rintro rfl
      obtain ⟨o, r, ho, hcons⟩ := hopen Json.Spaces.nil
      obtain ⟨rfl, -⟩ := List.cons.inj hcons
      rcases ho with ho | ho <;> exact absurd ho (by decide)
    obtain ⟨t₀, r, hrest, hnext, hstring⟩ := string_of_forward h hne hend (by simpa using hf)
    exact ⟨t₀, r, hrest, hnext, .string hstring⟩
  | noItems hw =>
    intro ambient rest s' _ _ hf
    obtain ⟨r, rfl, hinside⟩ := hf.mark (by unfold IsMark; decide)
    exact empty_of_forward (k := .array) hw (by simpa using hinside)
  | arr _ ih =>
    intro ambient rest s' _ _ hf
    obtain ⟨r, rfl, hinside⟩ := hf.mark (by unfold IsMark; decide)
    exact container_of_forward ih (by simpa using hinside)
  | @noMembers d w hw =>
    intro ambient rest s' _ _ hf
    rcases object_of_forward (Strict.noMembers (d := d) hw) hf with
      ⟨r, rfl, hinside⟩ | hcall
    · exact empty_of_forward (k := .object) hw (by simpa using hinside)
    · exact hcall
  | obj hstrict ih =>
    intro ambient rest s' _ _ hf
    rcases object_of_forward (Strict.obj hstrict) hf with ⟨r, rfl, hinside⟩ | hcall
    · exact container_of_forward ih (by simpa using hinside)
    · exact hcall
  | lastItem hw _ hw' ih =>
    intro ambient rest s' hf
    obtain ⟨t₀, r, rfl, hnext, hliteral⟩ :=
      element_of_forward hw hw' (Or.inr (Or.inl rfl)) ih (by simpa using hf)
    exact entries_last hw hw' hnext (.element hliteral)
  | item hw _ hw' _ ih ihs =>
    intro ambient rest s' hf
    obtain ⟨t₀, r, rfl, hnext, hliteral⟩ :=
      element_of_forward hw hw' (Or.inl rfl) ih (by simpa using hf)
    exact entries_more hw hw' ihs hnext (.element hliteral)
  | lastMember hw hk hw₁ hw₂ _ hw' ih =>
    intro ambient rest s' hf
    obtain ⟨t₀, r, rfl, hnext, hliteral⟩ :=
      member_of_forward hw hw' (Or.inr (Or.inr rfl)) ih hk hw₁ hw₂ (by simpa using hf)
    exact entries_last hw hw' hnext hliteral
  | member hw hk hw₁ hw₂ _ hw' _ ih ihs =>
    intro ambient rest s' hf
    obtain ⟨t₀, r, rfl, hnext, hliteral⟩ :=
      member_of_forward hw hw' (Or.inl rfl) ih hk hw₁ hw₂ (by simpa using hf)
    exact entries_more hw hw' ihs hnext hliteral

/-! ## Texts that are accepted -/

/-- A text that begins with a bracket, and is rewritten to JSON, is a literal with blanks behind
    it. -/
theorem literal_of_strict {ambient : Ambient} {o : Char} {t z : List Char} {v : Json}
    (ho : o = '[' ∨ o = '\x7b') (hz : rewritten ambient [] (o :: t) = .ok z)
    (hv : Json.read z = .ok v) :
    ∃ t₀ w, o :: t = t₀ ++ w ∧ Spaces w ∧ Literal anyLiberty .value t₀ := by
  have hother : Scan.isQuote o = false ∧ isWordChar o = false ∧ isSpace o = false ∧ o ≠ ',' := by
    rcases ho with rfl | rfl <;> decide
  have hcloser : ¬ IsCloser o := by rcases ho with rfl | rfl <;> unfold IsCloser <;> decide
  have hstays : CommaStays [] (o :: t) := fun h => nomatch h
  obtain ⟨z, rfl, hf⟩ := forward_of_rewritten _ (o :: t) [] z (Nat.le_refl _) hstays hz
  -- the bracket stands in front of the strict form too
  obtain ⟨z, rfl, -⟩ := hf.of_other hother.1 hcloser hother.2.1 hother.2.2.2
  obtain ⟨w, s, w', hsplit, hw, hstrict, hw'⟩ := Json.readWithin_eq_ok_iff.mp hv
  obtain ⟨c, r, rfl, hc, -⟩ := hstrict.head
  obtain ⟨rfl, rfl⟩ :=
    List.cons.inj (cons_of_spaces hw hc hother.2.2.1 (by rw [← List.cons_append, ← hsplit]))
  obtain ⟨t₀, r', hrest, hnext, hliteral⟩ := sourced_of_strict hstrict ambient _ w'
    ⟨w', [], hw', (List.append_nil w').symm, fun _ _ h => nomatch h⟩ (fun _ => ⟨c, r, ho, rfl⟩) hf
  rw [← List.append_nil w'] at hnext
  obtain ⟨r'', rfl, hnone⟩ := hnext.spaces hw'
  rw [hnone.nil_of_nil, List.append_nil] at hrest
  exact ⟨t₀, w', hrest, hw', hliteral⟩

/-- **A text that begins with a bracket and is accepted is a literal**, with blanks behind it at
    most.  Every liberty that was taken in it can be seen; where none can, it is well-formed. -/
theorem literal_of_accepted {ambient : Ambient} {text : List Char} {a : Argument}
    (hopen : ∃ o r, (o = '[' ∨ o = '\x7b') ∧ text = o :: r)
    (h : Argument.ofText ambient text = .ok a) :
    ∃ t w, text = t ++ w ∧ Blanks w ∧ Literal (fun ℓ => ℓ.ShowsIn t) .value t ∧
      ((∀ ℓ : Liberty, ¬ ℓ.ShowsIn t) → WellFormed t) := by
  obtain ⟨o, r, ho, rfl⟩ := hopen
  have hblank : isBlank o = false := by rcases ho with rfl | rfl <;> decide
  obtain ⟨w, w', hw, hw', hsplit⟩ := exists_trim (o :: r)
  have hfirst : ∀ {b : Char} {s : List Char}, Blanks (b :: s) → b ≠ o := by
    rintro b s hb rfl
    rw [hb b List.mem_cons_self] at hblank
    cases hblank
  -- the bracket stays where it is when blanks are cut off
  obtain rfl : w = [] := by
    cases w with
    | nil => rfl
    | cons b w => exact absurd (List.cons.inj hsplit).1.symm (hfirst hw)
  rw [List.nil_append] at hsplit
  obtain ⟨t, ht⟩ : ∃ t, trim (o :: r) = o :: t := by
    cases htrim : trim (o :: r) with
    | nil =>
      rw [htrim, List.nil_append] at hsplit
      exact absurd rfl (hfirst (hsplit ▸ hw'))
    | cons b t =>
      rw [htrim] at hsplit
      exact ⟨t, by rw [(List.cons.inj hsplit).1]⟩
  rw [Argument.ofText, ht, ofTrimmed_of_bracket ambient ho] at h
  obtain ⟨z, v, hz, hv, -⟩ := exists_strict h
  obtain ⟨t₀, u, htext, hu, hliteral⟩ := literal_of_strict ho hz hv
  refine ⟨t₀, u ++ w', ?_, ?_, hliteral.shows, hliteral.wellFormed⟩
  · rw [hsplit, ht, htext, List.append_assoc]
  · exact fun c hc => (List.mem_append.mp hc).elim (Blanks.of_spaces hu c) (hw' c)

/-- A literal with a call, a bare key and a comma behind the last element. -/
theorem literal_of_accepted_call :
    Argument.ofText ⟨0, fun _ => ⟨0⟩⟩ "[-NumberInt('5'), \x7ba.b: undefined\x7d, ]\t".toList =
        .ok (.array [.num (.int (-5)), .obj [("a.b", .null)]]) ∧
      ∃ t w, "[-NumberInt('5'), \x7ba.b: undefined\x7d, ]\t".toList = t ++ w ∧ Blanks w ∧
        Literal (fun ℓ => ℓ.ShowsIn t) .value t ∧
          ((∀ ℓ : Liberty, ¬ ℓ.ShowsIn t) → WellFormed t) := by
  have hread : Argument.ofText ⟨0, fun _ => ⟨0⟩⟩
      "[-NumberInt('5'), \x7ba.b: undefined\x7d, ]\t".toList =
        .ok (.array [.num (.int (-5)), .obj [("a.b", .null)]]) := rfl
  exact ⟨hread, literal_of_accepted ⟨'[', _, Or.inl rfl, rfl⟩ hread⟩

/-- A call ends with its parenthesis. -/
theorem ConstructorCall.last {con : Constructor} {arg t : List Char}
    (ht : ConstructorCall con arg t) : ∃ s, t = s ++ [')'] := by
  obtain @⟨h, w, -, -, -⟩ := ht
  exact ⟨h ++ (w ++ '(' :: arg), by simp only [List.append_assoc, List.cons_append]⟩

/-- A well-formed literal that ends with a digit is a number. -/
theorem WellFormed.number_of_last {t s : List Char} {d : Char} (h : WellFormed t)
    (hd : Decimal.isDigit d = true) (hlast : t = s ++ [d]) : NumberText t := by
  have hno : ∀ (f : List Char) {c : Char}, t = f ++ [c] → Decimal.isDigit c = false →
      NumberText t := by
    intro f c hc hdigit
    obtain ⟨rfl, -⟩ := List.cons.inj (List.append_inj_right' (hc.symm.trans hlast) rfl)
    rw [hd] at hdigit
    cases hdigit
  have hclosing : ∀ k : Container, Decimal.isDigit k.closing = false := by
    intro k
    cases k <;> decide
  cases h with
  | number h => exact h
  | null => exact hno ['n', 'u', 'l'] rfl (by decide)
  | undefined => exact hno ['u', 'n', 'd', 'e', 'f', 'i', 'n', 'e'] rfl (by decide)
  | isTrue => exact hno ['t', 'r', 'u'] rfl (by decide)
  | isFalse => exact hno ['f', 'a', 'l', 's'] rfl (by decide)
  | string h =>
    obtain @⟨q, t, hq, -⟩ := h
    refine hno (q :: t) rfl ?_
    rw [Scan.isQuote, Bool.or_eq_true, decide_eq_true_eq, decide_eq_true_eq] at hq
    rcases hq with rfl | rfl <;> decide
  | call ht =>
    obtain ⟨s', hs⟩ := ht.last
    exact hno s' hs (by decide)
  | minusCall hcon ht =>
    obtain ⟨s', rfl⟩ := ht.last
    exact hno ('-' :: s') rfl (by decide)
  | glued hL => exact hL.elim
  | empty k hw => exact hno _ (List.cons_append ..).symm (hclosing k)
  | loneComma k hL => exact hL.elim
  | @filled k t => exact hno (k.opening :: t) rfl (hclosing k)
  | @comma k t w =>
    refine hno (k.opening :: (t ++ ',' :: w)) ?_ (hclosing k)
    simp only [List.cons_append, List.append_assoc]
  | foreignBlank hL => exact hL.elim

/-- What stands between the brackets of a well-formed array, without blanks or commas, is
    well-formed. -/
theorem WellFormed.of_brackets {t : List Char} (h : WellFormed ('[' :: (t ++ [']']))) (hne : t ≠ [])
    (hsolid : t.all (!isSpace ·) = true) (hcomma : ',' ∉ t) : WellFormed t := by
  have hspaces : ∀ {w : List Char}, Spaces w → (∀ c ∈ w, c ∈ t) → w = [] := by
    intro w hw hin
    refine List.eq_nil_iff_forall_not_mem.mpr fun c hc => ?_
    have hspace := List.all_eq_true.mp hsolid c (hin c hc)
    rw [hw c hc] at hspace
    cases hspace
  have hinside : ∀ {k : Container} {s : List Char},
      '[' :: (t ++ [']']) = k.opening :: (s ++ [k.closing]) → k = .array ∧ t = s := by
    intro k s heq
    obtain ⟨hk, hs⟩ := List.cons.inj heq
    cases k with
    | array => exact ⟨rfl, List.append_cancel_right hs⟩
    | object => exact absurd hk (by decide)
  have hentries : Literal (fun _ => False) (.entries .array) t := by
    generalize htext : '[' :: (t ++ [']']) = text at h
    cases h with
    | number h =>
      obtain ⟨c, r, rfl, hc⟩ := h.head
      obtain ⟨rfl, -⟩ := List.cons.inj htext
      rcases hc with hc | hc <;> exact absurd hc (by decide)
    | string h =>
      obtain ⟨hq, -⟩ := h
      obtain ⟨rfl, -⟩ := List.cons.inj htext
      exact absurd hq (by decide)
    | call h =>
      obtain ⟨c, r, rfl, -, -, -, -, hbracket⟩ := h.first
      obtain ⟨rfl, -⟩ := List.cons.inj htext
      exact absurd (Or.inl rfl) hbracket
    | empty k hw =>
      obtain ⟨-, rfl⟩ := hinside htext
      exact absurd (hspaces hw fun _ => id) hne
    | filled h =>
      obtain ⟨rfl, rfl⟩ := hinside htext
      exact h
    | @comma k s w h hw =>
      obtain ⟨-, rfl⟩ := hinside (s := s ++ ',' :: w)
        (htext.trans (by rw [List.append_assoc, List.cons_append]))
      exact absurd (List.mem_append_right s List.mem_cons_self) hcomma
    | minusCall => exact absurd (List.cons.inj htext).1 (by decide)
    | glued hL => exact hL.elim
    | loneComma k hL => exact hL.elim
    | foreignBlank hL => exact hL.elim
    | _ => exact absurd (List.cons.inj htext).1 (by decide)
  cases hentries with
  | @last _ w s w' hw helement hw' =>
    obtain rfl := hspaces hw fun c hc => List.mem_append_left _ hc
    obtain rfl := hspaces hw' fun c hc => List.mem_append_right _ (List.mem_append_right s hc)
    rw [List.nil_append, List.append_nil]
    cases helement with
    | element hvalue => exact hvalue
  | more => exact absurd (by simp) hcomma

/-- Two numbers that were written one behind the other are read as one. -/
theorem glued_call_accepted :
    Argument.ofText ⟨0, fun _ => ⟨0⟩⟩ "[NumberInt(1)2]".toList = .ok (.array [.num (.int 12)]) ∧
      ¬ WellFormed "[NumberInt(1)2]".toList := by
  refine ⟨rfl, fun h => ?_⟩
  have hinside : WellFormed "NumberInt(1)2".toList :=
    WellFormed.of_brackets (t := "NumberInt(1)2".toList) h (by decide) (by decide) (by decide)
  obtain ⟨c, r, hcons, hc⟩ :=
    (hinside.number_of_last (s := "NumberInt(1)".toList) (d := '2') (by decide) rfl).head
  obtain ⟨rfl, -⟩ := List.cons.inj hcons
  rcases hc with hc | hc <;> exact absurd hc (by decide)

end Polyshell.Mongo
