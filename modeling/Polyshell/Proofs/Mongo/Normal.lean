/-
  What the normal form of a command keeps.

  1. **Blanks outside string literals** — such a blank leaves a scan where it is (`next_of_idle`), so the
     text can be read without these blanks (`solids`) and still have the same string literals
     (`literals_solids`).

  2. **Collapsing** — it deletes no other characters and adds none but spaces (`solids_collapse`), and
     each space that it leaves stands in front of something that is not blank (`followed_collapse`).  A
     text in which this holds of every such blank is collapsed already (`collapse_of_followed`).

  3. **The ends** — the blanks around a command and its semicolon stand outside string literals if these
     are all closed, so cutting them off takes nothing else (`solids_stripped`).  What is left begins and
     ends with something that is not blank, and normalizing it again cuts off another semicolon, if there
     is one, and nothing else (`normalized_again_iff`).
-/
import Polyshell.Proofs.Mongo.Arguments
import Polyshell.Proofs.Mongo.Switching

namespace Polyshell.Mongo

open Polyshell.Text

/-! ## Blanks outside string literals -/

/-- A blank outside every string literal. -/
def Scan.idle (s : Scan) (c : Char) : Bool := s.structural c && isBlank c

theorem idle_iff {s : Scan} {c : Char} : s.idle c = true ↔ s.quote = none ∧ isBlank c = true := by
  rw [Scan.idle, Scan.structural, Bool.and_eq_true, Bool.and_eq_true, Option.isNone_iff_eq_none,
    Bool.not_eq_true']
  constructor
  · rintro ⟨⟨hquote, -⟩, hblank⟩
    exact ⟨hquote, hblank⟩
  · rintro ⟨hquote, hblank⟩
    exact ⟨⟨hquote, (blank_other hblank).1⟩, hblank⟩

/-- Such a blank opens and closes nothing. -/
theorem next_of_idle {s : Scan} {c : Char} (h : s.idle c = true) : s.next c = s := by
  obtain ⟨hquote, hblank⟩ := idle_iff.mp h
  obtain ⟨hq, ho, hc⟩ := blank_other hblank
  rw [Scan.next, hquote]
  simp only [hq, ho, hc, Bool.false_eq_true, if_false]

/-- What is left of a text without the blanks outside its string literals. -/
def solids (s : Scan) : List Char → List Char
  | [] => []
  | c :: r => if s.idle c then solids (s.next c) r else c :: solids (s.next c) r

/-- The string literals of a text, each from its opening quote to its closing one; `held` is what was
    read so far of the one that is open. -/
def literals (s : Scan) (held : List Char) : List Char → List (List Char)
  | [] => []
  | c :: r =>
    if (s.next c).inString then literals (s.next c) (held ++ [c]) r
    else if s.inString then (held ++ [c]) :: literals (s.next c) [] r
    else literals (s.next c) [] r

theorem solids_idle {s : Scan} {c : Char} (h : s.idle c = true) (r : List Char) :
    solids s (c :: r) = solids s r := by
  rw [solids, if_pos h, next_of_idle h]

theorem solids_kept {s : Scan} {c : Char} (h : ¬ s.idle c = true) (r : List Char) :
    solids s (c :: r) = c :: solids (s.next c) r := by
  rw [solids, if_neg h]

theorem solids_append (a b : List Char) (s : Scan) :
    solids s (a ++ b) = solids s a ++ solids (s.run a) b := by
  induction a generalizing s with
  | nil => rfl
  | cons c a ih =>
    rw [List.cons_append, solids, solids, ih, Scan.run_cons]
    split <;> rfl

theorem solids_blanks {w : List Char} (hw : Blanks w) {s : Scan} (hs : s.quote = none) :
    solids s w = [] := by
  induction w with
  | nil => rfl
  | cons c w ih =>
    rw [solids_idle (idle_iff.mpr ⟨hs, hw c List.mem_cons_self⟩)]
    exact ih fun d hd => hw d (List.mem_cons_of_mem c hd)

/-- Blanks outside string literals are no part of any. -/
theorem literals_solids (t : List Char) (s : Scan) (held : List Char)
    (hheld : s.quote = none → held = []) : literals s held (solids s t) = literals s held t := by
  induction t generalizing s held with
  | nil => rfl
  | cons c r ih =>
    by_cases hidle : s.idle c = true
    · have hquote := (idle_iff.mp hidle).1
      have houtside : s.inString = false := by rw [Scan.inString, hquote]; rfl
      rw [solids_idle hidle, literals, next_of_idle hidle, houtside, if_neg Bool.false_ne_true,
        if_neg Bool.false_ne_true, hheld hquote, ih s [] fun _ => rfl]
    · rw [solids_kept hidle, literals, literals]
      split
      · next hinside =>
        refine ih _ _ fun hnone => ?_
        rw [Scan.inString, hnone] at hinside
        cases hinside
      · rw [ih _ [] fun _ => rfl]

theorem literals_unquoted {b : List Char} (hb : ∀ c ∈ b, Scan.isQuote c = false) {s : Scan}
    (h : s.inString = false) (held : List Char) : literals s held b = [] := by
  induction b generalizing s held with
  | nil => rfl
  | cons c b ih =>
    have hnext := closed_next (hb c List.mem_cons_self) h
    rw [literals, hnext, h, if_neg Bool.false_ne_true, if_neg Bool.false_ne_true]
    exact ih (fun d hd => hb d (List.mem_cons_of_mem c hd)) hnext []

/-- Behind the last string literal there is nothing more to collect. -/
theorem literals_append {b : List Char} (hb : ∀ c ∈ b, Scan.isQuote c = false) (a : List Char)
    (s : Scan) (held : List Char) (h : (s.run a).inString = false) :
    literals s held (a ++ b) = literals s held a := by
  induction a generalizing s held with
  | nil => exact literals_unquoted hb h held
  | cons c a ih => rw [List.cons_append, literals, literals, ih _ _ h, ih _ _ h]

/-! ## Collapsing -/

theorem collapse_idle {s : Scan} {c : Char} (h : s.idle c = true) (pending : Bool) (r : List Char) :
    collapse s pending (c :: r) = collapse s true r := by
  rw [collapse, ← Scan.idle, if_pos h, next_of_idle h]

theorem collapse_kept {s : Scan} {c : Char} (h : ¬ s.idle c = true) (pending : Bool) (r : List Char) :
    collapse s pending (c :: r) =
      (if pending then [' '] else []) ++ c :: collapse (s.next c) false r := by
  rw [collapse, ← Scan.idle, if_neg h]
  cases pending <;> rfl

/-- Nothing is deleted but blanks outside string literals, and nothing is added but such blanks. -/
theorem solids_collapse (t : List Char) (s : Scan) (pending : Bool)
    (hpending : pending = true → s.quote = none) :
    solids s (collapse s pending t) = solids s t := by
  induction t generalizing s pending with
  | nil => rfl
  | cons c r ih =>
    by_cases hidle : s.idle c = true
    · rw [collapse_idle hidle, solids_idle hidle, ih s true fun _ => (idle_iff.mp hidle).1]
    · have hrest : solids s (c :: collapse (s.next c) false r) = solids s (c :: r) := by
        rw [solids_kept hidle, solids_kept hidle, ih _ false fun hp => absurd hp Bool.false_ne_true]
      rw [collapse_kept hidle]
      cases pending with
      | false => exact hrest
      | true =>
        rw [if_pos rfl, List.singleton_append,
          solids_idle (idle_iff.mpr ⟨hpending rfl, by decide⟩), hrest]

/-- Every blank outside the string literals is one space in front of something that is not blank. -/
def Followed (s : Scan) (t : List Char) : Prop :=
  ∀ a x b, t = a ++ x :: b → (s.run a).idle x = true →
    x = ' ' ∧ ∃ c r, b = c :: r ∧ isBlank c = false

theorem Followed.tail {s : Scan} {c : Char} {r : List Char} (h : Followed s (c :: r)) :
    Followed (s.next c) r :=
  fun a x b hr hx => h (c :: a) x b (by rw [hr, List.cons_append]) hx

theorem followed_cons {s : Scan} {c : Char} {r : List Char}
    (hc : s.idle c = true → c = ' ' ∧ ∃ d r', r = d :: r' ∧ isBlank d = false)
    (h : Followed (s.next c) r) : Followed s (c :: r) := by
  intro a x b hr hx
  cases a with
  | nil =>
    obtain ⟨rfl, rfl⟩ := List.cons.inj hr
    exact hc hx
  | cons d a =>
    obtain ⟨rfl, rfl⟩ := List.cons.inj hr
    exact h a x b rfl hx

/-- In a collapsed text it is so, for blanks are passed over until something else comes. -/
theorem followed_collapse (t : List Char) (s : Scan) (pending : Bool)
    (hpending : pending = true → s.quote = none) : Followed s (collapse s pending t) := by
  induction t generalizing s pending with
  | nil =>
    intro a x b hnil
    exact absurd hnil.symm (List.append_ne_nil_of_right_ne_nil _ (List.cons_ne_nil x b))
  | cons c r ih =>
    by_cases hidle : s.idle c = true
    · rw [collapse_idle hidle]
      exact ih s true fun _ => (idle_iff.mp hidle).1
    · have hrest : Followed s (c :: collapse (s.next c) false r) :=
        followed_cons (fun h => absurd h hidle) (ih _ false fun hp => absurd hp Bool.false_ne_true)
      rw [collapse_kept hidle]
      cases pending with
      | false => exact hrest
      | true =>
        have hquote := hpending rfl
        have hspace : s.idle ' ' = true := idle_iff.mpr ⟨hquote, by decide⟩
        have hblank : isBlank c = false :=
          Bool.eq_false_iff.mpr fun hc => hidle (idle_iff.mpr ⟨hquote, hc⟩)
        refine followed_cons (fun _ => ⟨rfl, c, _, rfl, hblank⟩) ?_
        rw [next_of_idle hspace]
        exact hrest

theorem followed_normalized (t : List Char) : Followed Scan.start (normalized t) :=
  followed_collapse _ _ false fun hp => absurd hp Bool.false_ne_true

/-- Such a text is not changed any more. -/
theorem collapse_of_followed (t : List Char) (s : Scan) (h : Followed s t) :
    collapse s false t = t := by
  induction t generalizing s with
  | nil => rfl
  | cons c r ih =>
    have hrest := ih (s.next c) h.tail
    by_cases hidle : s.idle c = true
    · obtain ⟨rfl, d, r', rfl, hd⟩ := h [] c r rfl hidle
      rw [next_of_idle hidle] at hrest
      rw [collapse_idle hidle, collapse_pending hd, hrest]
    · rw [collapse_kept hidle, hrest]
      rfl

theorem length_collapse_le (t : List Char) (s : Scan) (pending : Bool) :
    (collapse s pending t).length ≤ t.length + pending.toNat := by
  induction t generalizing s pending with
  | nil => exact Nat.zero_le _
  | cons c r ih =>
    by_cases hidle : s.idle c = true
    · have hlength := ih s true
      rw [collapse_idle hidle, List.length_cons]
      simp only [Bool.toNat_true] at hlength
      omega
    · have hlength := ih (s.next c) false
      rw [collapse_kept hidle, List.length_append, List.length_cons, List.length_cons]
      cases pending <;> simp only [Bool.toNat_false, Bool.toNat_true, if_true, Bool.false_eq_true,
        if_false, List.length_nil, List.length_singleton] at hlength ⊢ <;> omega

/-! ## The ends -/

/-- The text without the semicolon at its end, if it has one. -/
def lessSemicolon (t : List Char) : List Char := if t.getLast? = some ';' then t.dropLast else t

theorem stripped_eq (t : List Char) : stripped t = trimEnd (lessSemicolon (trim t)) := by
  rw [stripped, lessSemicolon]
  simp only [dropLast?]
  split <;> rfl

theorem exists_lessSemicolon (t : List Char) :
    t = lessSemicolon t ∨ t = lessSemicolon t ++ [';'] := by
  rw [lessSemicolon]
  split
  · next hlast =>
    obtain ⟨l, rfl⟩ := List.getLast?_eq_some_iff.mp hlast
    rw [List.dropLast_concat]
    exact Or.inr rfl
  · exact Or.inl rfl

/-- A command is what is cut off in front, the trimmed command less its semicolon, and what is cut off
    behind, in which there are no quotes. -/
theorem exists_lessSemicolon_trim (t : List Char) : ∃ w tail, Blanks w ∧
    (∀ c ∈ tail, Scan.isQuote c = false) ∧ t = w ++ (lessSemicolon (trim t) ++ tail) := by
  obtain ⟨w, w', hw, hw', ht⟩ := exists_trim t
  rcases exists_lessSemicolon (trim t) with heq | heq
  · exact ⟨w, w', hw, hw'.unquoted, by rw [← heq]; exact ht⟩
  · refine ⟨w, [';'] ++ w', hw, fun c hc => ?_, ?_⟩
    · rcases List.mem_append.mp hc with hc | hc
      · rw [List.mem_singleton.mp hc]
        decide
      · exact hw'.unquoted c hc
    · rw [← List.append_assoc (lessSemicolon (trim t)), ← heq]
      exact ht

section Closed

variable {t : List Char} (h : (Scan.start.run t).inString = false)
include h

/-- If all string literals are closed, they are closed in front of what is cut off. -/
theorem closed_lessSemicolon : (Scan.start.run (lessSemicolon (trim t))).quote = none := by
  obtain ⟨w, tail, hw, htail, ht⟩ := exists_lessSemicolon_trim t
  rw [ht, run_blanks_append hw, Scan.inString, Option.isSome_eq_false_iff,
    Option.isNone_iff_eq_none] at h
  exact quote_of_unquoted htail h

/-- And so they are those of what is left. -/
theorem literals_lessSemicolon :
    literals Scan.start [] (lessSemicolon (trim t)) = literals Scan.start [] t := by
  have hclosed : (Scan.start.run (lessSemicolon (trim t))).inString = false := by
    rw [Scan.inString, closed_lessSemicolon h]
    rfl
  obtain ⟨w, tail, hw, htail, ht⟩ := exists_lessSemicolon_trim t
  have hsolids : solids Scan.start t = solids Scan.start (lessSemicolon (trim t) ++ tail) := by
    rw [ht, solids_append, solids_blanks hw rfl, List.nil_append, ← ht,
      show Scan.start.run w = Scan.start from run_blanks hw 0]
  rw [← literals_append htail _ _ _ hclosed, ← literals_solids _ _ _ (fun _ => rfl), ← hsolids,
    literals_solids _ _ _ fun _ => rfl]

/-- The second cut takes blanks outside string literals only. -/
theorem solids_stripped :
    solids Scan.start (stripped t) = solids Scan.start (lessSemicolon (trim t)) := by
  have hclosed := closed_lessSemicolon h
  obtain ⟨w, hw, heq⟩ := exists_trimEnd (lessSemicolon (trim t))
  rw [← stripped_eq] at heq
  rw [heq] at hclosed ⊢
  rw [solids_append, solids_blanks hw (quote_of_unquoted hw.unquoted hclosed), List.append_nil]

end Closed

/-- A normal form begins with something that is not blank. -/
theorem normalized_head (t : List Char) :
    normalized t = [] ∨ ∃ c r, normalized t = c :: r ∧ isBlank c = false := by
  cases hs : stripped t with
  | nil =>
    left
    rw [normalized, hs]
    rfl
  | cons c r =>
    right
    have hblank : isBlank c = false := by
      obtain ⟨w, -, hw⟩ := exists_trimEnd (lessSemicolon (trim t))
      rw [← stripped_eq, hs] at hw
      have hprefix : ∃ r', trim t = c :: r' := by
        rcases exists_lessSemicolon (trim t) with heq | heq
        · exact ⟨_, heq.trans hw⟩
        · exact ⟨r ++ w ++ [';'], by rw [heq, hw]; rfl⟩
      obtain ⟨r', hr⟩ := hprefix
      obtain ⟨d, r'', hd, hsolid⟩ := (solid_trim (by rw [hr]; exact List.cons_ne_nil c r')).head
      rw [hr] at hd
      rw [(List.cons.inj hd).1]
      exact hsolid
    exact ⟨c, _, by rw [normalized, hs, collapse_char hblank], hblank⟩

theorem solid_normalized {t : List Char} (h : normalized t ≠ []) : Solid (normalized t) :=
  ⟨(normalized_head t).resolve_left h, (normalized_last t).resolve_left h⟩

theorem length_trimEnd_le (s : List Char) : (trimEnd s).length ≤ s.length := by
  have hlength := List.length_dropWhile_le isBlank s.reverse
  rw [List.length_reverse] at hlength
  rwa [trimEnd, List.length_reverse]

/-- Normalizing again cuts off another semicolon, if there is one, and changes nothing else. -/
theorem normalized_again_iff (t : List Char) :
    normalized (normalized t) = normalized t ↔ (normalized t).getLast? ≠ some ';' := by
  constructor
  · intro hagain hlast
    have hne : normalized t ≠ [] := by
      intro hnil
      rw [hnil] at hlast
      cases hlast
    have hstripped : stripped (normalized t) = trimEnd (normalized t).dropLast := by
      rw [stripped_eq, (solid_normalized hne).trim, lessSemicolon, if_pos hlast]
    have hshorter := length_collapse_le (stripped (normalized t)) Scan.start false
    have hend := length_trimEnd_le (normalized t).dropLast
    have hpos := List.length_pos_iff.mpr hne
    rw [← normalized, hagain, hstripped, Bool.toNat_false] at hshorter
    rw [List.length_dropLast] at hend
    omega
  · intro hlast
    by_cases hne : normalized t = []
    · rw [hne]
      rfl
    · rw [normalized, (stripped_of_solid (solid_normalized hne) hlast).1]
      exact collapse_of_followed _ _ (followed_normalized t)

/-- Every blank outside the string literals is one space between two characters that are not blank. -/
def SingleSpaced (t : List Char) : Prop :=
  ∀ a x b, t = a ++ x :: b → (Scan.start.run a).idle x = true →
    x = ' ' ∧ (∃ l c, a = l ++ [c] ∧ isBlank c = false) ∧ ∃ c r, b = c :: r ∧ isBlank c = false

theorem singleSpaced_normalized (t : List Char) : SingleSpaced (normalized t) := by
  intro a x b hsplit hidle
  obtain ⟨hx, hnext⟩ := followed_normalized t a x b hsplit hidle
  refine ⟨hx, ?_, hnext⟩
  obtain ⟨hquote, hblank⟩ := idle_iff.mp hidle
  rcases List.eq_nil_or_concat a with rfl | ⟨l, c, rfl⟩
  · -- nothing in front: but a normal form does not begin with a blank
    rcases normalized_head t with hnil | ⟨c, r, hr, hc⟩
    · rw [hnil] at hsplit
      cases hsplit
    · rw [hr] at hsplit
      rw [(List.cons.inj hsplit).1, hblank] at hc
      cases hc
  · rw [List.concat_eq_append] at hquote hsplit ⊢
    refine ⟨l, c, rfl, ?_⟩
    rw [Bool.eq_false_iff]
    intro hc
    -- a blank in front stands outside string literals too, so it would be followed by no other
    have hbefore : (Scan.start.run l).quote = none :=
      quote_of_unquoted (fun d hd => by rw [List.mem_singleton.mp hd]; exact (blank_other hc).1) hquote
    obtain ⟨-, d, r, hd, hsolid⟩ :=
      followed_normalized t l c (x :: b) (by rw [hsplit, List.append_assoc]; rfl)
        (idle_iff.mpr ⟨hbefore, hc⟩)
    rw [← (List.cons.inj hd).1, hblank] at hsolid
    cases hsolid

/-- **What the normal form keeps.**  For every command whose string literals are all closed: without the
    blanks outside string literals, the normal form has the same characters as the trimmed command less
    one semicolon at its end; the string literals are the same, character by character; each blank outside
    them is one space between two characters that are not blank; and normalizing again changes nothing,
    unless the normal form ends with a semicolon. -/
theorem normalize_exact {command : String} (h : (Scan.start.run command.toList).inString = false) :
    solids Scan.start (normalize command).toList =
        solids Scan.start (lessSemicolon (trim command.toList)) ∧
      literals Scan.start [] (normalize command).toList = literals Scan.start [] command.toList ∧
      SingleSpaced (normalize command).toList ∧
      (normalize (normalize command) = normalize command ↔
        (normalize command).toList.getLast? ≠ some ';') := by
  have hsolids : solids Scan.start (normalized command.toList) =
      solids Scan.start (lessSemicolon (trim command.toList)) := by
    rw [normalized, solids_collapse _ _ false fun hp => absurd hp Bool.false_ne_true,
      solids_stripped h]
  rw [normalize, normalize, String.toList_ofList]
  refine ⟨hsolids, ?_, singleSpaced_normalized _, ?_⟩
  · rw [← literals_solids _ _ _ (fun _ => rfl), hsolids, literals_solids _ _ _ (fun _ => rfl),
      literals_lessSemicolon h]
  · rw [← normalized_again_iff]
    exact ⟨fun heq => String.ofList_injective heq, fun heq => congrArg String.ofList heq⟩

/-- A command with blanks in and around a string literal, an escaped quote and two semicolons. -/
theorem normalize_exact_quoted :
    (Scan.start.run "\t db.c .find( 'a  \\' b' ) ;; ".toList).inString = false ∧
      normalize "\t db.c .find( 'a  \\' b' ) ;; " = "db.c .find( 'a  \\' b' ) ;" ∧
      literals Scan.start [] (normalize "\t db.c .find( 'a  \\' b' ) ;; ").toList =
        ["'a  \\' b'".toList] := by
  have hclosed : (Scan.start.run "\t db.c .find( 'a  \\' b' ) ;; ".toList).inString = false := by decide
  obtain ⟨-, hliterals, -, -⟩ := normalize_exact hclosed
  exact ⟨hclosed, by decide +kernel, hliterals.trans (by decide +kernel)⟩

end Polyshell.Mongo
