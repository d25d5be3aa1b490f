/-
  String literals by themselves and inside a literal.

  A string that is an argument by itself is resolved by `unescape?`; inside a literal it is copied by
  `copyString`, and the reader of JSON resolves it.  The two agree on the escapes `\n`, `\t`, `\r`,
  `\\`, `\'` and `\"` and on the characters that are no controls, and on nothing else
  (`isShared`):

  * the reader refuses a control that stands for itself;
  * any other character behind a backslash keeps the backslash in the one, and in the other is an
    escape of JSON or a fault;
  * a backslash in front of the closing quote is dropped in the one, and in the other takes the quote
    in, so the string does not end there.

  That nothing else is read alike is a matter of length: reading a copy takes one character away for
  each backslash at least (`Body.length_surplus_le`), and where an escape is not shared that leaves
  less than what the string stands for by itself.
-/
import Polyshell.Proofs.Mongo.Bracketed

namespace Polyshell.Mongo

open Polyshell.Text
open Polyshell.Json (Spaces isSpace Strict Body Escape Hex4)

/-! ## Shared spellings -/

/-- The characters whose escapes mean the same inside and outside of literals. -/
def sharedEscapes : List Char := ['n', 't', 'r', '\\', '\'', '"']

/-- Whether the characters between quotes mean the same inside and outside of literals. -/
def isShared : List Char → Bool
  | [] => true
  | ['\\'] => false
  | '\\' :: c :: r => sharedEscapes.contains c && isShared r
  | c :: r => 0x20 ≤ c.toNat && isShared r

theorem isShared_escape (c : Char) (r : List Char) :
    isShared ('\\' :: c :: r) = (sharedEscapes.contains c && isShared r) := rfl

theorem isShared_raw {c : Char} (hb : c ≠ '\\') (r : List Char) :
    isShared (c :: r) = (decide (0x20 ≤ c.toNat) && isShared r) := by
  rw [isShared.eq_4 _ _ (fun he => absurd he hb) (fun _ _ he => absurd he hb)]

/-- Any other character keeps its backslash. -/
theorem unescapeChar_foreign {c : Char} (hc : c ∉ sharedEscapes) : unescapeChar c = ['\\', c] := by
  simp only [sharedEscapes, List.mem_cons, List.not_mem_nil, or_false, not_or] at hc
  obtain ⟨hn, ht, hr, hb, hq, hd⟩ := hc
  unfold unescapeChar
  split <;> first | rfl | contradiction

/-! ## What reading takes away -/

/-- How many characters reading takes away at least: one for each backslash and what it escapes.  A
    control counts as well, though it cannot be read at all. -/
def surplus : List Char → Nat
  | '\\' :: _ :: r => surplus r + 1
  | c :: r => if c.toNat < 0x20 then surplus r + 1 else surplus r
  | [] => 0

theorem surplus_escape (c : Char) (r : List Char) : surplus ('\\' :: c :: r) = surplus r + 1 := rfl

theorem surplus_raw {c : Char} (hb : c ≠ '\\') (r : List Char) :
    surplus (c :: r) = if c.toNat < 0x20 then surplus r + 1 else surplus r := by
  rw [surplus.eq_2 _ _ (fun _ _ he => absurd he hb)]

/-- `Copied q body s t` — between quotes `q` the text `body` stands for `s`, and `t` is its copy: a
    strict text of `s` where the spelling is shared, and otherwise too short for one. -/
structure Copied (q : Char) (body s t : List Char) : Prop where
  copies : ∀ r, copyString q (body ++ q :: r) = (t ++ ['"'], r)
  strict : isShared body = true → Body s t
  length_le : t.length ≤ s.length + surplus t
  shared : s.length + surplus t ≤ t.length → isShared body = true

namespace Copied

variable {q c : Char} {body s t : List Char}

/-- The closing quote ends the copying. -/
theorem nil (hq : Scan.isQuote q = true) : Copied q [] [] [] where
  copies r := by
    have hb : q ≠ '\\' := by
      rintro rfl
      exact absurd hq (by decide)
    rw [List.nil_append, copyString.eq_3 q q r (fun _ _ hc _ => hb hc), if_pos rfl]
    rfl
  strict _ := .nil
  length_le := Nat.le_refl 0
  shared _ := rfl

section Steps

variable (h : Copied q body s t)
include h

/-- An escape that is shared is copied. -/
theorem escape (hc : c ∈ sharedEscapes) (hq : c ≠ '\'') {x : Char} (hx : Escape x [c]) :
    Copied q ('\\' :: c :: body) (x :: s) ('\\' :: c :: t) where
  copies r := copyString_escaped (h.copies r) hq
  strict hs := by
    rw [isShared_escape, Bool.and_eq_true] at hs
    exact .escape hx (h.strict hs.2)
  length_le := by
    have hle := h.length_le
    simp only [surplus_escape, List.length_cons]
    omega
  shared hle := by
    simp only [surplus_escape, List.length_cons] at hle
    rw [isShared_escape, Bool.and_eq_true, List.contains_iff_mem]
    exact ⟨hc, h.shared (by omega)⟩

/-- An escape that is not shared is copied too, but stands for two characters by itself. -/
theorem foreign (hc : c ∉ sharedEscapes) :
    Copied q ('\\' :: c :: body) ('\\' :: c :: s) ('\\' :: c :: t) where
  copies r := copyString_escaped (h.copies r) fun he => hc (he ▸ by decide)
  strict hs := by
    rw [isShared_escape, Bool.and_eq_true, List.contains_iff_mem] at hs
    exact absurd hs.1 hc
  length_le := by
    have hle := h.length_le
    simp only [surplus_escape, List.length_cons]
    omega
  shared hle := by
    have hge := h.length_le
    simp only [surplus_escape, List.length_cons] at hle
    omega

/-- Any other character stands for itself, but a control only by itself. -/
theorem raw (hb : c ≠ '\\') (hq : c ≠ q) (hd : c ≠ '"') :
    Copied q (c :: body) (c :: s) (c :: t) where
  copies r := copyString_plain (h.copies r) hb hq hd
  strict hs := by
    rw [isShared_raw hb, Bool.and_eq_true, decide_eq_true_eq] at hs
    exact .raw hs.1 hd hb (h.strict hs.2)
  length_le := by
    have hle := h.length_le
    rw [surplus_raw hb, List.length_cons, List.length_cons]
    split <;> omega
  shared hle := by
    have hge := h.length_le
    rw [surplus_raw hb, List.length_cons, List.length_cons] at hle
    rw [isShared_raw hb, Bool.and_eq_true, decide_eq_true_eq]
    split at hle
    · omega
    · exact ⟨by omega, h.shared (by omega)⟩

end Steps

end Copied

/-- What is copied up to its closing quote is copied alike everywhere. -/
theorem Copied.inside {q : Char} (hq : Scan.isQuote q = true) {body s t : List Char}
    (h : Copied q body s t) : Inside (q :: (body ++ [q])) ('"' :: (t ++ ['"'])) := by
  intro ambient out rest _ _
  rw [List.cons_append, List.append_assoc, List.singleton_append, rewritten_string ambient out hq,
    h.copies rest]
  simp

section Singleton

variable (ambient : Ambient) {q : Char} (hq : Scan.isQuote q = true) {body s w w' : List Char}
include hq

variable (h : unescape? q body = some s)
include h

end Singleton

end Polyshell.Mongo
