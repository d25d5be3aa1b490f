/-
  Between the parentheses of a call stand exactly its arguments, with commas between them.

  1. **Pieces** — `Uncut t`: scanned by itself, `t` never closes more than was opened, and no comma in
     it stands outside of all that is open.  A piece is such a text at whose end nothing is open.  A
     piece leaves the scan as it was, so the next one can be scanned by itself again
     (`run_eq_start`).

  2. **One character** — behind an uncut text the next character cuts (`argumentPieces?_cuts`), closes
     too much (`argumentPieces?_sinks`), or is added to the piece (`argumentPieces?_stays`).

  3. **Both directions** — a text is cut into some pieces exactly if these are pieces and give the text
     when they are joined by commas (`argumentPieces?_eq_some_iff`).

  4. **Arguments** — an argument is a piece without the blanks around it that is not empty.  The
     arguments that are read from a text are the only ones that the text lists
     (`splitArguments_exact`).
-/
import Polyshell.Proofs.Mongo.Bracketed
import Polyshell.Proofs.Mongo.Chains

namespace Polyshell.Mongo

open Polyshell.Text

/-! ## Pieces -/

/-- Nothing is closed that was not opened, and every comma outside of string literals stands inside
    of brackets. -/
structure Uncut (t : List Char) : Prop where
  level : ∀ p, p <+: t → 0 ≤ (Scan.start.run p).depth
  commas : ∀ p r, t = p ++ ',' :: r → (Scan.start.run p).structural ',' = true →
    (Scan.start.run p).depth ≠ 0

/-- An uncut text at whose end nothing is open. -/
structure IsPiece (t : List Char) : Prop where
  uncut : Uncut t
  settled : (Scan.start.run t).settled = true

/-- The text of one argument: a piece that begins and ends with something that is not blank. -/
structure IsArgument (t : List Char) : Prop where
  solid : Solid t
  piece : IsPiece t

/-- A text with blanks around it. -/
def Padded (t q : List Char) : Prop := ∃ w w', Blanks w ∧ Blanks w' ∧ q = w ++ (t ++ w')

/-- A text that lists some others: it has commas between them, and blanks around each.  If there are
    any, one more comma may stand behind the last. -/
def Lists (args : List (List Char)) (t : List Char) : Prop :=
  args = [] ∧ Blanks t ∨
    args ≠ [] ∧ ∃ qs, List.Forall₂ Padded args qs ∧
      (t = [','].intercalate qs ∨ ∃ w, Blanks w ∧ t = [','].intercalate (qs ++ [w]))

/-- The arguments that stand in a text. -/
def IsArgumentList (args : List (List Char)) (t : List Char) : Prop :=
  (∀ a ∈ args, IsArgument a) ∧ Lists args t

/-! ## Where nothing is open -/

/-- What holds at the beginning of a scan, and is kept by every character, holds all along. -/
theorem run_induct {P : Scan → Prop} (hstart : P Scan.start) (hnext : ∀ s c, P s → P (s.next c))
    (t : List Char) : P (Scan.start.run t) := by
  generalize Scan.start = s at hstart
  induction t generalizing s with
  | nil => exact hstart
  | cons c t ih => exact ih _ (hnext s c hstart)

/-- A backslash counts in string literals only. -/
theorem not_escaped_of_quote_eq_none (t : List Char) :
    (Scan.start.run t).quote = none → (Scan.start.run t).escaped = false := by
  refine run_induct (P := fun s => s.quote = none → s.escaped = false) (fun _ => rfl)
    (fun s c hs => ?_) t
  rw [Scan.next]
  split
  · next q hq =>
    split
    · exact fun _ => rfl
    · next hescaped =>
      split
      · intro hnone
        cases hq.symm.trans hnone
      · split
        · exact fun _ => Bool.not_eq_true _ ▸ hescaped
        · intro hnone
          cases hq.symm.trans hnone
  · next hnone =>
    split
    · intro hopen
      cases hopen
    · split
      · exact fun _ => hs hnone
      · split
        · exact fun _ => hs hnone
        · exact hs

/-- Only a quote opens a string literal. -/
theorem isQuote_of_quote (t : List Char) : ∀ q, (Scan.start.run t).quote = some q →
    Scan.isQuote q = true := by
  refine run_induct (P := fun s => ∀ q, s.quote = some q → Scan.isQuote q = true)
    (fun q hq => by cases hq) (fun s c hs => ?_) t
  rw [Scan.next]
  split
  · split
    · exact hs
    · split
      · exact hs
      · split
        · intro q hq
          cases hq
        · exact hs
  · split
    · next hc =>
      intro q hq
      cases hq
      exact hc
    · split
      · exact hs
      · split
        · exact hs
        · exact hs

theorem settled_iff {s : Scan} : s.settled = true ↔ s.quote = none ∧ s.depth = 0 := by
  simp [Scan.settled, Scan.inString]

/-- Outside string literals a scan is known by its depth. -/
theorem run_eq_at {t : List Char} (hquote : (Scan.start.run t).quote = none) :
    Scan.start.run t = Scan.at (Scan.start.run t).depth := by
  have hescaped := not_escaped_of_quote_eq_none t hquote
  generalize Scan.start.run t = s at *
  cases s
  simp only at hquote hescaped
  rw [hquote, hescaped]
  rfl

/-- Behind a text that leaves nothing open the scan is where it began. -/
theorem run_eq_start {t : List Char} (hquote : (Scan.start.run t).quote = none)
    (hdepth : (Scan.start.run t).depth = 0) : Scan.start.run t = Scan.start := by
  rw [run_eq_at hquote, hdepth]
  rfl

theorem IsPiece.run {t : List Char} (h : IsPiece t) : Scan.start.run t = Scan.start := by
  obtain ⟨hquote, hdepth⟩ := settled_iff.mp h.settled
  exact run_eq_start hquote hdepth

/-- Blanks open and close nothing. -/
theorem run_blanks {w : List Char} (hw : Blanks w) (d : Int) : (Scan.at d).run w = Scan.at d := by
  induction w with
  | nil => rfl
  | cons c w ih =>
    rw [Scan.run_cons, next_blank (hw c List.mem_cons_self)]
    exact ih fun e he => hw e (List.mem_cons_of_mem c he)

theorem run_blanks_append {w : List Char} (hw : Blanks w) (t : List Char) :
    Scan.start.run (w ++ t) = Scan.start.run t := by
  rw [Scan.run_append, show Scan.start = Scan.at 0 from rfl, run_blanks hw]

/-- What has no quotes does not close a string literal. -/
theorem quote_run_unquoted {q : Char} (hq : Scan.isQuote q = true) {w : List Char}
    (hw : ∀ c ∈ w, Scan.isQuote c = false) {s : Scan} (hs : s.quote = some q) :
    (s.run w).quote = some q := by
  induction w generalizing s with
  | nil => exact hs
  | cons c w ih =>
    refine ih (fun e he => hw e (List.mem_cons_of_mem c he)) ?_
    have hne : c ≠ q := by
      rintro rfl
      rw [hw c List.mem_cons_self] at hq
      cases hq
    rw [Scan.next, hs]
    dsimp only
    rw [if_neg hne]
    split
    · rfl
    · split
      · rfl
      · exact hs

/-- So nothing was open in front of it if nothing is open behind it. -/
theorem quote_of_unquoted {t w : List Char} (hw : ∀ c ∈ w, Scan.isQuote c = false)
    (h : (Scan.start.run (t ++ w)).quote = none) : (Scan.start.run t).quote = none := by
  cases hopen : (Scan.start.run t).quote with
  | none => rfl
  | some q =>
    rw [Scan.run_append, quote_run_unquoted (isQuote_of_quote t q hopen) hw hopen] at h
    cases h

theorem Blanks.unquoted {w : List Char} (hw : Blanks w) : ∀ c ∈ w, Scan.isQuote c = false :=
  fun c hc => (blank_other (hw c hc)).1

/-- What is no quote opens no string literal. -/
theorem closed_next {s : Scan} {c : Char} (hc : Scan.isQuote c = false) (h : s.inString = false) :
    (s.next c).inString = false := by
  have hquote : s.quote = none := Option.not_isSome_iff_eq_none.mp (Bool.eq_false_iff.mp h)
  rw [Scan.next, hquote]
  simp only [hc, Bool.false_eq_true, if_false]
  split
  · rfl
  · split
    · rfl
    · exact h

/-- If nothing is open behind blanks, nothing was open in front of them. -/
theorem settled_of_blanks {t w : List Char} (hw : Blanks w)
    (h : (Scan.start.run (t ++ w)).settled = true) : (Scan.start.run t).settled = true := by
  obtain ⟨hquote, hdepth⟩ := settled_iff.mp h
  have hclosed := quote_of_unquoted hw.unquoted hquote
  rw [Scan.run_append, run_eq_at hclosed, run_blanks hw] at hdepth
  exact settled_iff.mpr ⟨hclosed, hdepth⟩

/-! ## Uncut texts -/

namespace Uncut

theorem nil : Uncut [] := by
  refine ⟨fun p hp => ?_, fun p r h => ?_⟩
  · obtain rfl := List.prefix_nil.mp hp
    exact Int.le_refl 0
  · exact absurd (List.append_eq_nil_iff.mp h.symm).2 (List.cons_ne_nil _ _)

/-- The beginning of an uncut text is uncut. -/
theorem front {a b : List Char} (h : Uncut (a ++ b)) : Uncut a := by
  refine ⟨fun p hp => h.level p (hp.trans (List.prefix_append a b)), fun p r ha => ?_⟩
  refine h.commas p (r ++ b) ?_
  rw [ha, List.append_assoc, List.cons_append]

theorem concat {p : List Char} {c : Char} (h : Uncut p)
    (hlevel : 0 ≤ (Scan.start.run (p ++ [c])).depth)
    (hcomma : c = ',' → (Scan.start.run p).structural ',' = true → (Scan.start.run p).depth ≠ 0) :
    Uncut (p ++ [c]) := by
  refine ⟨fun q hq => ?_, fun q r hr => ?_⟩
  · rcases List.prefix_concat_iff.mp hq with rfl | hq
    · exact hlevel
    · exact h.level q hq
  · rcases List.eq_nil_or_concat r with rfl | ⟨r, d, rfl⟩
    · obtain ⟨rfl, hc⟩ := List.append_inj' hr rfl
      exact hcomma (List.singleton_inj.mp hc)
    · rw [List.concat_eq_append, ← List.cons_append, ← List.append_assoc] at hr
      exact h.commas q r (List.append_inj' hr rfl).1

/-- Behind a text that leaves nothing open another one begins anew. -/
theorem append {a b : List Char} (ha : Uncut a) (hrun : Scan.start.run a = Scan.start)
    (hb : Uncut b) : Uncut (a ++ b) := by
  have hbehind : ∀ r, Scan.start.run (a ++ r) = Scan.start.run r := fun r => by
    rw [Scan.run_append, hrun]
  refine ⟨fun p hp => ?_, fun p r hr => ?_⟩
  · rcases List.prefix_or_prefix_of_prefix hp (List.prefix_append a b) with hp' | ⟨r, rfl⟩
    · exact ha.level p hp'
    · rw [hbehind]
      exact hb.level r ((List.prefix_append_right_inj a).mp hp)
  · rcases List.append_eq_append_iff.mp hr with ⟨q, rfl, hq⟩ | ⟨q, hq, hb'⟩
    · rw [hbehind]
      exact hb.commas q r hq
    · cases q with
      | nil =>
        -- the comma is the first character of the second text
        rw [List.append_nil] at hq
        rw [← hq, hrun]
        exact hb.commas [] r hb'.symm
      | cons d q =>
        obtain ⟨rfl, -⟩ := List.cons.inj hb'
        exact ha.commas p q hq

theorem blanks {w : List Char} (hw : Blanks w) : Uncut w := by
  refine ⟨fun p hp => ?_, fun p r hr => ?_⟩
  · rw [show Scan.start = Scan.at 0 from rfl, run_blanks fun c hc => hw c (hp.subset hc)]
    exact Int.le_refl 0
  · have hcomma : ',' ∈ w := hr ▸ List.mem_append_right p List.mem_cons_self
    exact absurd (hw ',' hcomma) (by decide)

/-- Blanks in front of a text do not matter. -/
theorem of_blanks_append {w t : List Char} (hw : Blanks w) (h : Uncut (w ++ t)) : Uncut t := by
  refine ⟨fun p hp => ?_, fun p r hr => ?_⟩
  · rw [← run_blanks_append hw]
    exact h.level (w ++ p) ((List.prefix_append_right_inj w).mpr hp)
  · rw [← run_blanks_append hw p]
    exact h.commas (w ++ p) r (by rw [hr, List.append_assoc])

end Uncut

/-! ## One character -/

section Character

variable {p : List Char} {c : Char} (seen r : List Char)

/-- A comma leaves the scan as it is, or in its string literal. -/
theorem depth_next_comma (s : Scan) : (s.next ',').depth = s.depth := by
  cases hs : s.inString with
  | true => exact Scan.next_depth_of_inString s ',' hs
  | false =>
    have hquote : s.quote = none := by simpa [Scan.inString] using hs
    rw [Scan.next, hquote]
    rfl

/-- A comma outside of all that is open ends a piece. -/
theorem argumentPieces?_cuts (hs : (Scan.start.run p).structural ',' = true)
    (hdepth : (Scan.start.run p).depth = 0) :
    argumentPieces? (Scan.start.run p) seen (',' :: r) =
      (argumentPieces? Scan.start [] r).map (trim seen.reverse :: ·) := by
  have hquote : (Scan.start.run p).quote = none := by
    have hnone := (Bool.and_eq_true_iff.mp hs).1
    simpa using hnone
  rw [run_eq_start hquote hdepth, argumentPieces?]
  rfl

/-- More is closed than was opened. -/
theorem argumentPieces?_sinks (hp : Uncut p) (h : (Scan.start.run (p ++ [c])).depth < 0) :
    argumentPieces? (Scan.start.run p) seen (c :: r) = none := by
  have hs : (Scan.start.run p).structural c = true := by
    by_contra hs
    rw [depth_concat (Bool.eq_false_iff.mpr hs)] at h
    have hlevel := hp.level p List.prefix_rfl
    omega
  rw [run_concat] at h
  rw [argumentPieces?, if_pos (by rw [hs, Bool.true_and, decide_eq_true h])]

/-- The piece goes on. -/
theorem argumentPieces?_stays (h : Uncut (p ++ [c])) :
    argumentPieces? (Scan.start.run p) seen (c :: r) =
      argumentPieces? (Scan.start.run (p ++ [c])) (c :: seen) r := by
  have hlevel := h.level _ List.prefix_rfl
  have hcomma := h.commas p []
  rw [run_concat] at hlevel ⊢
  have hcut : ¬ ((Scan.start.run p).structural c && decide (c = ',') &&
      ((Scan.start.run p).next c).depth == 0) = true := by
    simp only [Bool.and_eq_true, decide_eq_true_eq, beq_iff_eq]
    rintro ⟨⟨hs, rfl⟩, hdepth⟩
    rw [depth_next_comma] at hdepth
    exact hcomma rfl hs hdepth
  have hsink : ¬ ((Scan.start.run p).structural c &&
      decide (((Scan.start.run p).next c).depth < 0)) = true := by
    rw [Bool.and_eq_true, decide_eq_true_eq]
    omega
  rw [argumentPieces?, if_neg hsink, if_neg hcut]

end Character

/-! ## Both directions -/

/-- What follows of a piece is added to it. -/
theorem argumentPieces?_rest (rest : List Char) {q : List Char} : ∀ {p : List Char}
    (seen : List Char), Uncut (p ++ q) →
    argumentPieces? (Scan.start.run p) seen (q ++ rest) =
      argumentPieces? (Scan.start.run (p ++ q)) (q.reverse ++ seen) rest := by
  induction q with
  | nil =>
    intro p seen _
    rw [List.append_nil]
    rfl
  | cons c q ih =>
    intro p seen h
    have hsplit : p ++ c :: q = (p ++ [c]) ++ q := by rw [List.append_assoc, List.singleton_append]
    rw [hsplit] at h ⊢
    rw [List.cons_append, argumentPieces?_stays seen (q ++ rest) h.front, ih (c :: seen) h,
      List.reverse_cons, List.append_assoc q.reverse, List.singleton_append]

namespace IsPiece

variable {q : List Char} (h : IsPiece q)
include h

/-- A piece at the end of a text. -/
theorem argumentPieces?_last : argumentPieces? Scan.start [] q = some [trim q] := by
  have hrest := argumentPieces?_rest [] (p := []) [] h.uncut
  rw [List.append_nil, List.append_nil, Scan.run_nil, List.nil_append, h.run] at hrest
  rw [hrest, argumentPieces?, List.reverse_reverse]
  rfl

/-- A piece in front of a comma. -/
theorem argumentPieces?_comma (rest : List Char) :
    argumentPieces? Scan.start [] (q ++ ',' :: rest) =
      (argumentPieces? Scan.start [] rest).map (trim q :: ·) := by
  have hrest := argumentPieces?_rest (',' :: rest) (p := []) [] h.uncut
  obtain ⟨hquote, hdepth⟩ := settled_iff.mp h.settled
  have hs : (Scan.start.run q).structural ',' = true := by
    rw [Scan.structural, hquote]
    rfl
  rw [List.append_nil, Scan.run_nil, List.nil_append] at hrest
  rw [hrest, argumentPieces?_cuts _ rest hs hdepth, List.reverse_reverse]

end IsPiece

/-- What is cut off is a piece, with a comma or nothing behind it. -/
theorem exists_piece {text : List Char} {pieces : List (List Char)} : ∀ {p : List Char}, Uncut p →
    argumentPieces? (Scan.start.run p) p.reverse text = some pieces →
    ∃ q, IsPiece (p ++ q) ∧ (text = q ∧ pieces = [trim (p ++ q)] ∨
      ∃ rest later, text = q ++ ',' :: rest ∧ argumentPieces? Scan.start [] rest = some later ∧
        pieces = trim (p ++ q) :: later) := by
  induction text with
  | nil =>
    intro p hp h
    rw [argumentPieces?, List.reverse_reverse] at h
    split at h
    · next hsettled =>
      cases h
      refine ⟨[], ?_, Or.inl ⟨rfl, ?_⟩⟩
      · rw [List.append_nil]
        exact ⟨hp, hsettled⟩
      · rw [List.append_nil]
    · cases h
  | cons c r ih =>
    intro p hp h
    by_cases hcut : c = ',' ∧ (Scan.start.run p).structural ',' = true ∧ (Scan.start.run p).depth = 0
    · obtain ⟨rfl, hs, hdepth⟩ := hcut
      rw [argumentPieces?_cuts _ r hs hdepth, List.reverse_reverse] at h
      obtain ⟨later, hlater, rfl⟩ := Option.map_eq_some_iff.mp h
      have hquote : (Scan.start.run p).quote = none := by
        simpa using (Bool.and_eq_true_iff.mp hs).1
      refine ⟨[], ?_, Or.inr ⟨r, later, rfl, hlater, ?_⟩⟩
      · rw [List.append_nil]
        exact ⟨hp, settled_iff.mpr ⟨hquote, hdepth⟩⟩
      · rw [List.append_nil]
    · by_cases hlevel : 0 ≤ (Scan.start.run (p ++ [c])).depth
      · have hstays : Uncut (p ++ [c]) := hp.concat hlevel fun hc hs hdepth =>
          hcut ⟨hc, hs, hdepth⟩
        rw [argumentPieces?_stays _ r hstays, ← List.reverse_concat] at h
        obtain ⟨q, hq, hends⟩ := ih hstays h
        rw [List.append_assoc, List.singleton_append] at hq hends
        refine ⟨c :: q, hq, ?_⟩
        rcases hends with ⟨rfl, hpieces⟩ | ⟨rest, later, rfl, hlater, hpieces⟩
        · exact Or.inl ⟨rfl, hpieces⟩
        · exact Or.inr ⟨rest, later, rfl, hlater, hpieces⟩
      · rw [argumentPieces?_sinks _ r hp (Int.not_le.mp hlevel)] at h
        cases h

/-- Texts with commas between them begin with the first. -/
theorem intercalate_cons {q : List Char} {qs : List (List Char)} (h : qs ≠ []) :
    [','].intercalate (q :: qs) = q ++ ',' :: [','].intercalate qs := by
  rw [List.intercalate_cons_of_ne_nil h, List.append_assoc, List.singleton_append]

/-- A text is cut into the pieces that give it when commas are put between them. -/
theorem argumentPieces?_eq_some_iff {text : List Char} {pieces : List (List Char)} :
    argumentPieces? Scan.start [] text = some pieces ↔
      ∃ qs, qs ≠ [] ∧ (∀ q ∈ qs, IsPiece q) ∧ text = [','].intercalate qs ∧
        pieces = qs.map trim := by
  constructor
  · intro h
    induction pieces generalizing text with
    | nil =>
      obtain ⟨q, -, ⟨-, hnil⟩ | ⟨rest, later, -, -, hnil⟩⟩ := exists_piece (p := []) Uncut.nil h
      · cases hnil
      · cases hnil
    | cons t pieces ih =>
      obtain ⟨q, hq, ⟨rfl, hpieces⟩ | ⟨rest, later, rfl, hlater, hpieces⟩⟩ :=
        exists_piece (p := []) Uncut.nil h
      · exact ⟨[text], List.cons_ne_nil text [], List.forall_mem_singleton.mpr hq,
          List.intercalate_singleton.symm, hpieces⟩
      · obtain ⟨rfl, rfl⟩ := List.cons.inj hpieces
        obtain ⟨qs, hne, hqs, rfl, rfl⟩ := ih hlater
        exact ⟨q :: qs, List.cons_ne_nil q qs, List.forall_mem_cons.mpr ⟨hq, hqs⟩,
          (intercalate_cons hne).symm, rfl⟩
  · rintro ⟨qs, hne, hqs, rfl, rfl⟩
    induction qs with
    | nil => exact absurd rfl hne
    | cons q qs ih =>
      obtain ⟨hq, hqs⟩ := List.forall_mem_cons.mp hqs
      cases qs with
      | nil =>
        rw [List.intercalate_singleton, hq.argumentPieces?_last]
        rfl
      | cons q' qs =>
        rw [intercalate_cons (List.cons_ne_nil q' qs), hq.argumentPieces?_comma,
          ih (List.cons_ne_nil q' qs) hqs]
        rfl

/-! ## Arguments -/

theorem trim_eq_nil_iff {t : List Char} : trim t = [] ↔ Blanks t := by
  obtain ⟨w, w', hw, hw', ht⟩ := exists_trim t
  constructor
  · intro h
    rw [h, List.nil_append] at ht
    rw [ht]
    exact fun c hc => (List.mem_append.mp hc).elim (hw c) (hw' c)
  · intro hblank
    by_contra hne
    obtain ⟨c, r, hc, hsolid⟩ := (solid_trim hne).head
    have hmem : c ∈ t := by
      rw [ht, hc]
      exact List.mem_append_right w (List.mem_append_left w' List.mem_cons_self)
    rw [hblank c hmem] at hsolid
    cases hsolid

/-- A piece that is not blank is an argument with blanks around it. -/
theorem IsPiece.isArgument_trim {q : List Char} (h : IsPiece q) (hne : trim q ≠ []) :
    IsArgument (trim q) := by
  obtain ⟨w, w', hw, hw', hq⟩ := exists_trim q
  have huncut := h.uncut
  have hsettled := h.settled
  rw [hq] at huncut hsettled
  rw [run_blanks_append hw] at hsettled
  exact ⟨solid_trim hne, (huncut.of_blanks_append hw).front, settled_of_blanks hw' hsettled⟩

/-- An argument with blanks around it is a piece, and the blanks are cut off. -/
theorem IsArgument.padded {t q : List Char} (h : IsArgument t) (hq : Padded t q) :
    IsPiece q ∧ trim q = t := by
  obtain ⟨w, w', hw, hw', rfl⟩ := hq
  have hstart : Scan.start = Scan.at 0 := rfl
  have hrun : Scan.start.run (w ++ (t ++ w')) = Scan.start := by
    rw [run_blanks_append hw, Scan.run_append, h.piece.run, hstart, run_blanks hw']
  have hbefore : Scan.start.run w = Scan.start := by rw [hstart, run_blanks hw]
  refine ⟨⟨?_, ?_⟩, h.solid.trim_padded hw hw'⟩
  · exact (Uncut.blanks hw).append hbefore (h.piece.uncut.append h.piece.run (Uncut.blanks hw'))
  · rw [hrun]
    rfl

/-- So it is with several. -/
theorem pieces_of_padded {args qs : List (List Char)} (hargs : ∀ a ∈ args, IsArgument a)
    (h : List.Forall₂ Padded args qs) : (∀ q ∈ qs, IsPiece q) ∧ qs.map trim = args := by
  induction h with
  | nil => exact ⟨fun q hq => absurd hq List.not_mem_nil, rfl⟩
  | cons hq _ ih =>
    obtain ⟨ha, hargs⟩ := List.forall_mem_cons.mp hargs
    obtain ⟨hpiece, htrim⟩ := ha.padded hq
    obtain ⟨hpieces, htrims⟩ := ih hargs
    exact ⟨List.forall_mem_cons.mpr ⟨hpiece, hpieces⟩, by rw [List.map_cons, htrim, htrims]⟩

theorem padded_map_trim (qs : List (List Char)) : List.Forall₂ Padded (qs.map trim) qs := by
  induction qs with
  | nil => exact .nil
  | cons q qs ih => exact .cons (exists_trim q) ih

theorem dropEmptyLast_concat (pieces : List (List Char)) (t : List Char) :
    dropEmptyLast (pieces ++ [t]) = if t = [] then pieces else pieces ++ [t] := by
  rw [dropEmptyLast, List.getLast?_concat]
  cases t with
  | nil => exact List.dropLast_concat
  | cons c r => rfl

/-- A text in which arguments stand is not blank. -/
theorem not_blanks_of_padded {args qs : List (List Char)} (hargs : ∀ a ∈ args, IsArgument a)
    (hne : args ≠ []) (h : List.Forall₂ Padded args qs) (later : List (List Char)) :
    ¬ Blanks ([','].intercalate (qs ++ later)) := by
  cases h with
  | nil => exact absurd rfl hne
  | @cons a q _ qs hq _ =>
    intro hblank
    obtain ⟨w, w', -, -, rfl⟩ := hq
    obtain ⟨c, r, rfl, hc⟩ := (hargs _ List.mem_cons_self).solid.head
    have hfirst : c ∈ w ++ (c :: r ++ w') := by simp
    have hmem : c ∈ [','].intercalate ((w ++ (c :: r ++ w')) :: qs ++ later) := by
      rw [List.cons_append]
      cases hrest : qs ++ later with
      | nil =>
        rw [List.intercalate_singleton]
        exact hfirst
      | cons x xs =>
        rw [intercalate_cons (List.cons_ne_nil x xs)]
        exact List.mem_append_left _ hfirst
    rw [hblank c hmem] at hc
    cases hc

/-- Blank text holds no arguments; any other is cut, an empty piece at its end is dropped, and no
    other may be empty. -/
theorem argumentTexts_of_not_blanks {inner : List Char} {args : List (List Char)}
    (h : ¬ Blanks inner) : argumentTexts inner = .ok args ↔
      ∃ pieces, argumentPieces? Scan.start [] inner = some pieces ∧
        dropEmptyLast pieces = args ∧ [] ∉ args := by
  have hempty : ¬ (trim inner).isEmpty = true := fun hempty =>
    h (trim_eq_nil_iff.mp (List.isEmpty_iff.mp hempty))
  rw [argumentTexts, if_neg hempty]
  cases argumentPieces? Scan.start [] inner with
  | none => simp
  | some pieces =>
    have hany : (dropEmptyLast pieces).any List.isEmpty = true ↔ [] ∈ dropEmptyLast pieces := by
      simp [List.any_eq_true, List.isEmpty_iff]
    dsimp only
    rw [if_congr hany rfl rfl]
    constructor
    · intro hargs
      split at hargs
      · cases hargs
      · next hfull =>
        cases hargs
        exact ⟨pieces, rfl, rfl, hfull⟩
    · rintro ⟨_, hpieces, rfl, hfull⟩
      cases hpieces
      rw [if_neg hfull]

theorem argumentTexts_of_blanks {inner : List Char} (h : Blanks inner) :
    argumentTexts inner = .ok [] := by
  rw [argumentTexts, trim_eq_nil_iff.mpr h]
  rfl

/-- What is read from a text are arguments that stand in it. -/
theorem isArgumentList_of_argumentTexts {inner : List Char} {args : List (List Char)}
    (h : argumentTexts inner = .ok args) : IsArgumentList args inner := by
  by_cases hblank : Blanks inner
  · rw [argumentTexts_of_blanks hblank] at h
    cases h
    exact ⟨fun a ha => absurd ha List.not_mem_nil, Or.inl ⟨rfl, hblank⟩⟩
  · obtain ⟨pieces, hpieces, rfl, hfull⟩ := (argumentTexts_of_not_blanks hblank).mp h
    obtain ⟨qs, hne, hqs, rfl, rfl⟩ := argumentPieces?_eq_some_iff.mp hpieces
    obtain ⟨front, last, rfl⟩ := (List.eq_nil_or_concat qs).resolve_left hne
    rw [List.concat_eq_append] at *
    have hargument : ∀ q ∈ front ++ [last], trim q ∈ dropEmptyLast ((front ++ [last]).map trim) →
        IsArgument (trim q) := by
      intro q hq hmem
      refine (hqs q hq).isArgument_trim fun hempty => hfull ?_
      rwa [hempty] at hmem
    rw [List.map_append, List.map_singleton, dropEmptyLast_concat] at hargument ⊢
    split at hargument
    · next hlast =>
      -- the last piece is what stands behind a comma at the end
      rw [if_pos hlast]
      refine ⟨List.forall_mem_map.mpr fun q hq => ?_, Or.inr ⟨?_, front, padded_map_trim front,
        Or.inr ⟨last, trim_eq_nil_iff.mp hlast, rfl⟩⟩⟩
      · exact hargument q (List.mem_append_left _ hq) (List.mem_map_of_mem hq)
      · intro hnone
        obtain rfl := List.map_eq_nil_iff.mp hnone
        rw [List.nil_append, List.intercalate_singleton] at hblank
        exact hblank (trim_eq_nil_iff.mp hlast)
    · next hlast =>
      rw [if_neg hlast, ← List.map_singleton, ← List.map_append]
      rw [← List.map_singleton, ← List.map_append] at hargument
      exact ⟨List.forall_mem_map.mpr fun q hq => hargument q hq (List.mem_map_of_mem hq),
        Or.inr ⟨by simp, _, padded_map_trim _, Or.inl rfl⟩⟩

/-- Arguments that stand in a text are read from it. -/
theorem IsArgumentList.argumentTexts {inner : List Char} {args : List (List Char)}
    (h : IsArgumentList args inner) : argumentTexts inner = .ok args := by
  obtain ⟨hargs, ⟨rfl, hblank⟩ | ⟨hne, qs, hpadded, htext⟩⟩ := h
  · exact argumentTexts_of_blanks hblank
  · obtain ⟨hqs, rfl⟩ := pieces_of_padded hargs hpadded
    have hfull : [] ∉ qs.map trim := fun hmem => (hargs [] hmem).solid.ne_nil rfl
    have hsome : qs ≠ [] := fun hnil => hne (List.map_eq_nil_iff.mpr hnil)
    rcases htext with rfl | ⟨w, hw, rfl⟩
    · have hblank := not_blanks_of_padded hargs hne hpadded []
      rw [List.append_nil] at hblank
      exact (argumentTexts_of_not_blanks hblank).mpr ⟨qs.map trim,
        argumentPieces?_eq_some_iff.mpr ⟨qs, hsome, hqs, rfl, rfl⟩, dropEmptyLast_eq_self hfull,
        hfull⟩
    · have hblank := not_blanks_of_padded hargs hne hpadded [w]
      have hlast : IsPiece w := by
        refine ⟨Uncut.blanks hw, ?_⟩
        rw [show Scan.start = Scan.at 0 from rfl, run_blanks hw]
        rfl
      have hpieces : ∀ q ∈ qs ++ [w], IsPiece q := by
        intro q hq
        rcases List.mem_append.mp hq with hq | hq
        · exact hqs q hq
        · rwa [List.mem_singleton.mp hq]
      refine (argumentTexts_of_not_blanks hblank).mpr ⟨qs.map trim ++ [[]],
        argumentPieces?_eq_some_iff.mpr ⟨qs ++ [w], by simp, hpieces, rfl, ?_⟩, ?_, hfull⟩
      · rw [List.map_append, List.map_singleton, trim_eq_nil_iff.mpr hw]
      · rw [dropEmptyLast_concat, if_pos rfl]

theorem argumentTexts_eq_ok_iff {inner : List Char} {args : List (List Char)} :
    argumentTexts inner = .ok args ↔ IsArgumentList args inner :=
  ⟨isArgumentList_of_argumentTexts, IsArgumentList.argumentTexts⟩

theorem splitArguments_eq_ok_iff {text : String} {args : List String} :
    splitArguments text = .ok args ↔ IsArgumentList (args.map String.toList) text.toList :=
  map_ofList_eq_ok_iff.trans argumentTexts_eq_ok_iff

/-- A text is cut into arguments exactly if it is these with commas between them, blanks around each,
    and perhaps a comma behind the last; there are none exactly if it is blank.  It is so in one way
    at most. -/
theorem splitArguments_exact (text : String) :
    (∀ args : List String, splitArguments text = .ok args ↔
      (∀ a ∈ args, IsArgument a.toList) ∧ Lists (args.map String.toList) text.toList) ∧
    (∀ args : List String, splitArguments text = .ok args →
      (args = [] ↔ Blanks text.toList)) ∧
    (∀ args args' : List String, IsArgumentList (args.map String.toList) text.toList →
      IsArgumentList (args'.map String.toList) text.toList → args = args') := by
  refine ⟨fun args => ?_, fun args h => ⟨?_, fun hblank => ?_⟩, fun args args' h h' => ?_⟩
  · rw [splitArguments_eq_ok_iff, IsArgumentList, List.forall_mem_map]
  · rintro rfl
    rcases (splitArguments_eq_ok_iff.mp h).2 with ⟨-, hblank⟩ | ⟨hne, -⟩
    · exact hblank
    · exact absurd rfl hne
  · have hnone : splitArguments text = .ok [] :=
      map_ofList_eq_ok_iff.mpr (argumentTexts_of_blanks hblank)
    exact Except.ok.inj (h.symm.trans hnone)
  · rw [← splitArguments_eq_ok_iff] at h h'
    exact Except.ok.inj (h.symm.trans h')

/-- Commas in string literals and in brackets of any kind do not separate, and the last one may be
    followed by nothing. -/
theorem splitArguments_exact_nested :
    splitArguments "\x7ba: [1, (2)]\x7d,\t'it\\'s, \x7d' , x(\",)\") ,\n" =
        .ok ["\x7ba: [1, (2)]\x7d", "'it\\'s, \x7d'", "x(\",)\")"] ∧
      IsArgument "'it\\'s, \x7d'".toList := by
  have h : splitArguments "\x7ba: [1, (2)]\x7d,\t'it\\'s, \x7d' , x(\",)\") ,\n" =
      .ok ["\x7ba: [1, (2)]\x7d", "'it\\'s, \x7d'", "x(\",)\")"] := by decide +kernel
  obtain ⟨hargs, -⟩ := ((splitArguments_exact _).1 _).mp h
  exact ⟨h, hargs _ (by decide)⟩

end Polyshell.Mongo
