/-
  Brackets outside string literals: whether they are as many, and whether they are of a kind.

  1. **The brackets of a text** — `brackets s t` leaves out everything else.  Where no string literal
     is open (`StringsClosed`), a text can be cut in two, and each part can be scanned by itself: how many
     brackets are open makes no difference to what is a bracket (`brackets_append_closed`).

  2. **By kind** — `pending?` goes over brackets with those in hand that are still open, and stops where
     one closes none, or one of another kind.  A text is `Nested` if nothing is left open.

  3. **By number** — `Balanced` is what a scan can tell, which only counts.  A balanced text never
     reaches the brackets that were opened in front of it, so it nests wherever it stands or nowhere
     (`Balanced.pending?_eq`), and two such texts nest side by side exactly if both do
     (`nested_append_iff`).
-/
import Polyshell.Proofs.Mongo.Arguments

namespace Polyshell.Mongo

open Polyshell.Text

/-! ## The brackets of a text -/

/-- A bracket of any kind. -/
def Scan.isBracket (c : Char) : Bool := isOpening c || isClosing c

/-- The brackets of a text that stand outside of its string literals. -/
def brackets (s : Scan) : List Char → List Char
  | [] => []
  | c :: r =>
    if s.structural c && Scan.isBracket c then c :: brackets (s.next c) r
    else brackets (s.next c) r

theorem brackets_append (a b : List Char) (s : Scan) :
    brackets s (a ++ b) = brackets s a ++ brackets (s.run a) b := by
  induction a generalizing s with
  | nil => rfl
  | cons c a ih =>
    rw [List.cons_append, brackets, brackets, ih, Scan.run_cons]
    split <;> rfl

/-! ### Other depths -/

/-- The same state below more brackets. -/
def Scan.deeper (d : Int) (s : Scan) : Scan := { s with depth := s.depth + d }

theorem next_deeper (d : Int) (s : Scan) (c : Char) :
    (s.deeper d).next c = (s.next c).deeper d := by
  obtain ⟨quote, escaped, depth⟩ := s
  cases quote with
  | some q =>
    by_cases hescaped : escaped = true
    · simp [Scan.next, Scan.deeper, hescaped]
    by_cases hb : c = '\\'
    · simp [Scan.next, Scan.deeper, hescaped, hb]
    by_cases hc : c = q
    · subst hc
      simp [Scan.next, Scan.deeper, hescaped, hb]
    · simp [Scan.next, Scan.deeper, hescaped, hb, hc]
  | none =>
    cases hq : Scan.isQuote c <;> cases ho : Scan.isOpening c <;> cases hc : Scan.isClosing c <;>
      simp [Scan.next, Scan.deeper, hq, ho, hc] <;> omega

theorem run_deeper (d : Int) (t : List Char) (s : Scan) :
    (s.deeper d).run t = (s.run t).deeper d := by
  induction t generalizing s with
  | nil => rfl
  | cons c t ih => rw [Scan.run_cons, next_deeper, ih, Scan.run_cons]

/-- What is a bracket does not depend on how many are open. -/
theorem brackets_deeper (d : Int) (t : List Char) (s : Scan) :
    brackets (s.deeper d) t = brackets s t := by
  induction t generalizing s with
  | nil => rfl
  | cons c t ih =>
    have hstructural : (s.deeper d).structural c = s.structural c := rfl
    rw [brackets, brackets, next_deeper, ih, hstructural]

theorem at_eq_deeper (d : Int) : Scan.at d = Scan.start.deeper d := by
  rw [Scan.deeper, Scan.start, Int.zero_add]
  rfl

/-! ### Where no string literal is open -/

/-- No string literal is open at the end of the text. -/
def StringsClosed (t : List Char) : Prop := (Scan.start.run t).quote = none

instance (t : List Char) : Decidable (StringsClosed t) :=
  inferInstanceAs (Decidable ((Scan.start.run t).quote = none))

section StringsClosed

variable {a : List Char} (ha : StringsClosed a) (b : List Char)
include ha

theorem run_append_closed :
    Scan.start.run (a ++ b) = (Scan.start.run b).deeper (Scan.start.run a).depth := by
  have hfront := run_eq_at ha
  generalize (Scan.start.run a).depth = d at hfront ⊢
  rw [Scan.run_append, hfront, at_eq_deeper, run_deeper]

theorem closed_append_iff : StringsClosed (a ++ b) ↔ StringsClosed b := by
  rw [StringsClosed, StringsClosed, run_append_closed ha b]
  rfl

theorem brackets_append_closed :
    brackets Scan.start (a ++ b) = brackets Scan.start a ++ brackets Scan.start b := by
  rw [brackets_append, run_eq_at ha, at_eq_deeper, brackets_deeper]

end StringsClosed

/-! ### Characters that do not count -/

/-- Neither a quote nor a bracket. -/
def Inert (c : Char) : Prop :=
  Scan.isQuote c = false ∧ Scan.isOpening c = false ∧ Scan.isClosing c = false

instance (c : Char) : Decidable (Inert c) :=
  inferInstanceAs (Decidable (_ ∧ _))

theorem Inert.of_isPlain {c : Char} (h : isPlain c = true) : Inert c :=
  ⟨(isPlain_spec h).1, (isPlain_spec h).2.1, (isPlain_spec h).2.2.1⟩

theorem inert_of_all {t : List Char} (h : (t.all fun c => decide (Inert c)) = true) :
    ∀ c ∈ t, Inert c :=
  fun c hc => of_decide_eq_true (List.all_eq_true.mp h c hc)

theorem Blanks.inert {w : List Char} (hw : Blanks w) : ∀ c ∈ w, Inert c :=
  fun c hc => blank_other (hw c hc)

theorem run_inert {t : List Char} (h : ∀ c ∈ t, Inert c) : Scan.start.run t = Scan.start := by
  induction t with
  | nil => rfl
  | cons c t ih =>
    obtain ⟨hq, ho, hc⟩ := h c List.mem_cons_self
    rw [Scan.run_cons, show Scan.start = Scan.at 0 from rfl, next_of_other hq ho hc]
    exact ih fun d hd => h d (List.mem_cons_of_mem c hd)

theorem brackets_inert {t : List Char} (h : ∀ c ∈ t, Inert c) : brackets Scan.start t = [] := by
  induction t with
  | nil => rfl
  | cons c t ih =>
    obtain ⟨hq, ho, hc⟩ := h c List.mem_cons_self
    have hnone : Scan.isBracket c = false := by rw [Scan.isBracket, ho, hc, Bool.or_false]
    rw [brackets, hnone, Bool.and_false, if_neg Bool.false_ne_true,
      show Scan.start = Scan.at 0 from rfl, next_of_other hq ho hc]
    exact ih fun d hd => h d (List.mem_cons_of_mem c hd)

/-! ## By kind -/

/-- Whether `c` closes what `o` opens. -/
def pairs (o c : Char) : Bool :=
  (o = '(' && c = ')') || (o = '\x7b' && c = '\x7d') || (o = '[' && c = ']')

/-- The brackets that are open behind one more, the last one first.  Nothing can be said of a bracket
    that closes none, or one of another kind. -/
def behind? (opened : List Char) (c : Char) : Option (List Char) :=
  if Scan.isOpening c then some (c :: opened)
  else match opened with
    | o :: outer => if pairs o c then some outer else none
    | [] => none

theorem behind?_opening {c : Char} (h : Scan.isOpening c = true) (opened : List Char) :
    behind? opened c = some (c :: opened) := by
  rw [behind?.eq_def, if_pos h]

theorem behind?_closing {c : Char} (h : ¬ Scan.isOpening c = true) (o : Char) (outer : List Char) :
    behind? (o :: outer) c = if pairs o c then some outer else none := by
  rw [behind?, if_neg h]

/-- The brackets that are open behind several. -/
def pending? (opened bs : List Char) : Option (List Char) := bs.foldlM behind? opened

/-- Every bracket outside of string literals closes the last one that is open, which is of its kind,
    and none is left open. -/
def Nested (t : List Char) : Prop := pending? [] (brackets Scan.start t) = some []

instance (t : List Char) : Decidable (Nested t) :=
  inferInstanceAs (Decidable (pending? [] (brackets Scan.start t) = some []))

theorem pending?_cons (opened : List Char) (c : Char) (bs : List Char) :
    pending? opened (c :: bs) = (behind? opened c).bind fun left => pending? left bs :=
  List.foldlM_cons

theorem pending?_singleton (opened : List Char) (c : Char) :
    pending? opened [c] = behind? opened c := by
  rw [pending?_cons]
  cases behind? opened c <;> rfl

theorem pending?_append (opened a b : List Char) :
    pending? opened (a ++ b) = (pending? opened a).bind fun left => pending? left b :=
  List.foldlM_append

/-! ### Texts that nest by themselves -/

/-- Whatever is open in front of the text, the same is open behind it. -/
structure Neutral (t : List Char) : Prop where
  closed : StringsClosed t
  pending : ∀ opened, pending? opened (brackets Scan.start t) = some opened

namespace Neutral

variable {a b t : List Char}

theorem nested (h : Neutral t) : Nested t := h.pending []

theorem of_inert (h : ∀ c ∈ t, Inert c) : Neutral t where
  closed := by rw [StringsClosed, run_inert h]; rfl
  pending opened := by rw [brackets_inert h]; rfl

theorem append (ha : Neutral a) (hb : Neutral b) : Neutral (a ++ b) where
  closed := (closed_append_iff ha.closed b).mpr hb.closed
  pending opened := by
    rw [brackets_append_closed ha.closed, pending?_append, ha.pending, Option.bind_some, hb.pending]

end Neutral

/-- A bracket is no quote. -/
theorem run_bracket {c : Char} (h : Scan.isBracket c = true) :
    StringsClosed [c] ∧ brackets Scan.start [c] = [c] := by
  simp only [Scan.isBracket, Scan.isOpening, Scan.isClosing, Bool.or_eq_true, decide_eq_true_eq] at h
  rcases h with ((rfl | rfl) | rfl) | ((rfl | rfl) | rfl) <;> decide

/-- Brackets of a kind. -/
theorem pairs_spec {o c : Char} (h : pairs o c = true) :
    Scan.isBracket o = true ∧ Scan.isBracket c = true ∧
      ∀ opened, behind? opened o = some (o :: opened) ∧ behind? (o :: opened) c = some opened := by
  simp only [pairs, Bool.or_eq_true, Bool.and_eq_true, decide_eq_true_eq] at h
  rcases h with (⟨rfl, rfl⟩ | ⟨rfl, rfl⟩) | ⟨rfl, rfl⟩ <;>
    exact ⟨by decide, by decide, fun _ => ⟨rfl, rfl⟩⟩

section Enclosed

variable {o c : Char} (h : pairs o c = true) {t : List Char}
include h

theorem brackets_enclosed (ht : StringsClosed t) : StringsClosed (o :: (t ++ [c])) ∧
    brackets Scan.start (o :: (t ++ [c])) = o :: (brackets Scan.start t ++ [c]) := by
  obtain ⟨ho, hc, -⟩ := pairs_spec h
  obtain ⟨hwo, hbo⟩ := run_bracket ho
  obtain ⟨hwc, hbc⟩ := run_bracket hc
  rw [← List.singleton_append, closed_append_iff hwo, closed_append_iff ht,
    brackets_append_closed hwo, brackets_append_closed ht, hbo, hbc]
  exact ⟨hwc, rfl⟩

/-- Between brackets of a kind the first of them is open. -/
theorem pending?_enclosed (ht : StringsClosed t) (opened : List Char) :
    pending? opened (brackets Scan.start (o :: (t ++ [c]))) =
      (pending? (o :: opened) (brackets Scan.start t)).bind fun left => behind? left c := by
  rw [(brackets_enclosed h ht).2, pending?_cons, ((pairs_spec h).2.2 opened).1, Option.bind_some,
    pending?_append]
  simp only [pending?_singleton]

theorem Neutral.enclosed (ht : Neutral t) : Neutral (o :: (t ++ [c])) where
  closed := (brackets_enclosed h ht.closed).1
  pending opened := by
    rw [pending?_enclosed h ht.closed, ht.pending, Option.bind_some, ((pairs_spec h).2.2 opened).2]

end Enclosed

/-! ## By number -/

/-- Nothing is closed that was not opened, and nothing is open at the end, whatever the kinds. -/
structure Balanced (t : List Char) : Prop where
  level : ∀ p, p <+: t → 0 ≤ (Scan.start.run p).depth
  settled : (Scan.start.run t).settled = true

/-- A bracket outside string literals counts by one. -/
theorem depth_next_bracket {s : Scan} {c : Char} (hs : s.structural c = true)
    (hc : Scan.isBracket c = true) :
    (s.next c).depth = if Scan.isOpening c then s.depth + 1 else s.depth - 1 := by
  obtain ⟨hnone, hquote⟩ := Bool.and_eq_true_iff.mp hs
  rw [Option.isNone_iff_eq_none] at hnone
  rw [Bool.not_eq_true'] at hquote
  simp only [Scan.next, hnone, hquote, Bool.false_eq_true, if_false]
  cases ho : Scan.isOpening c with
  | true => rfl
  | false =>
    rw [Scan.isBracket, ho, Bool.false_or] at hc
    simp only [hc, if_true, Bool.false_eq_true, if_false]

/-- Nothing else counts. -/
theorem depth_next_other {s : Scan} {c : Char}
    (h : ¬ (s.structural c && Scan.isBracket c) = true) : (s.next c).depth = s.depth := by
  cases hquote : s.quote with
  | some q => exact Scan.next_depth_of_inString s c (by rw [Scan.inString, hquote]; rfl)
  | none =>
    rw [Scan.next, hquote]
    dsimp only
    split
    · rfl
    · next hq =>
      have hstructural : s.structural c = true := by
        rw [Scan.structural, hquote, Option.isNone_none, Bool.true_and, Bool.not_eq_true',
          ← Bool.not_eq_true]
        exact hq
      rw [hstructural, Bool.true_and, Scan.isBracket, Bool.or_eq_true, not_or] at h
      rw [if_neg h.1, if_neg h.2]

/-- Where as many brackets are open as the scan counts, one that does not close too many leaves as many
    as it counts then, and does not reach those in front of the text. -/
theorem behind?_of_level {s : Scan} {c : Char} (hs : s.structural c = true)
    (hc : Scan.isBracket c = true) {left : List Char} (hleft : (left.length : Int) = s.depth)
    (hlevel : 0 ≤ (s.next c).depth) :
    (∀ opened, behind? (left ++ opened) c = (behind? left c).map (· ++ opened)) ∧
      ∀ left', behind? left c = some left' → (left'.length : Int) = (s.next c).depth := by
  rw [depth_next_bracket hs hc] at hlevel ⊢
  by_cases ho : Scan.isOpening c = true
  · rw [if_pos ho]
    refine ⟨fun opened => ?_, fun left' hleft' => ?_⟩
    · rw [behind?_opening ho, behind?_opening ho]
      rfl
    · rw [behind?_opening ho] at hleft'
      cases hleft'
      rw [List.length_cons]
      omega
  · rw [if_neg ho] at hlevel ⊢
    -- the count says that a bracket of the text is open
    cases left with
    | nil =>
      rw [List.length_nil] at hleft
      omega
    | cons o outer =>
      rw [List.length_cons] at hleft
      refine ⟨fun opened => ?_, fun left' hleft' => ?_⟩
      · rw [List.cons_append, behind?_closing ho, behind?_closing ho]
        split <;> rfl
      · rw [behind?_closing ho] at hleft'
        split at hleft'
        · cases hleft'
          omega
        · cases hleft'

/-- **A text that closes no more than it opens does not reach what is open in front of it**, and its open
    brackets are as many as the scan counts. -/
theorem pending?_of_level {t : List Char} (h : ∀ p, p <+: t → 0 ≤ (Scan.start.run p).depth) :
    (∀ opened, pending? opened (brackets Scan.start t) =
        (pending? [] (brackets Scan.start t)).map (· ++ opened)) ∧
      ∀ left, pending? [] (brackets Scan.start t) = some left →
        (left.length : Int) = (Scan.start.run t).depth := by
  induction t using List.reverseRecOn with
  | nil => exact ⟨fun _ => rfl, fun left hleft => by cases hleft; rfl⟩
  | append_singleton t c ih =>
    obtain ⟨hmap, hlength⟩ := ih fun p hp => h p (hp.trans (List.prefix_append t [c]))
    have hlevel := h (t ++ [c]) List.prefix_rfl
    rw [run_concat] at hlevel ⊢
    rw [brackets_append]
    generalize Scan.start.run t = s at hlength hlevel ⊢
    by_cases hs : (s.structural c && Scan.isBracket c) = true
    · obtain ⟨hstructural, hbracket⟩ := Bool.and_eq_true_iff.mp hs
      rw [show brackets s [c] = [c] from if_pos hs]
      simp only [pending?_append, pending?_singleton]
      cases hleft : pending? [] (brackets Scan.start t) with
      | none =>
        rw [hleft] at hmap
        exact ⟨fun opened => by rw [hmap]; rfl, fun left hnone => by cases hnone⟩
      | some left =>
        rw [hleft] at hmap
        obtain ⟨hstep, hcount⟩ := behind?_of_level hstructural hbracket (hlength left hleft) hlevel
        exact ⟨fun opened => by rw [hmap]; exact hstep opened, hcount⟩
    · rw [show brackets s [c] = [] from if_neg hs, List.append_nil, depth_next_other hs]
      exact ⟨hmap, hlength⟩

namespace Balanced

variable {a b t : List Char}

theorem closed (h : Balanced t) : StringsClosed t := (settled_iff.mp h.settled).1

theorem run (h : Balanced t) : Scan.start.run t = Scan.start :=
  run_eq_start h.closed (settled_iff.mp h.settled).2

/-- Behind a balanced text the same is open as in front of it, if it nests at all. -/
theorem pending?_eq (h : Balanced t) (opened : List Char) :
    pending? opened (brackets Scan.start t) = if Nested t then some opened else none := by
  obtain ⟨hmap, hlength⟩ := pending?_of_level h.level
  rw [hmap]
  cases hleft : pending? [] (brackets Scan.start t) with
  | none =>
    have hnot : ¬ Nested t := fun hn => nomatch hleft.symm.trans hn
    rw [if_neg hnot]
    rfl
  | some left =>
    have hcount := hlength left hleft
    rw [h.run] at hcount
    obtain rfl : left = [] := List.length_eq_zero_iff.mp (Int.ofNat_eq_zero.mp hcount)
    rw [if_pos (show Nested t from hleft)]
    rfl

theorem of_inert (h : ∀ c ∈ t, Inert c) : Balanced t where
  level p hp := by
    rw [run_inert fun c hc => h c (hp.subset hc)]
    exact Int.le_refl 0
  settled := by rw [run_inert h]; rfl

theorem append (ha : Balanced a) (hb : Balanced b) : Balanced (a ++ b) where
  level p hp := by
    rcases List.prefix_or_prefix_of_prefix hp (List.prefix_append a b) with hp' | ⟨r, rfl⟩
    · exact ha.level p hp'
    · rw [Scan.run_append, ha.run]
      exact hb.level r ((List.prefix_append_right_inj a).mp hp)
  settled := by rw [Scan.run_append, ha.run, hb.settled]

/-- Two texts nest side by side if each of them does. -/
theorem nested_append_iff (ha : Balanced a) : Nested (a ++ b) ↔ Nested a ∧ Nested b := by
  rw [Nested, brackets_append_closed ha.closed, pending?_append, ha.pending?_eq]
  by_cases hn : Nested a
  · rw [if_pos hn, Option.bind_some, ← Nested, and_iff_right hn]
  · rw [if_neg hn, Option.bind_none]
    exact iff_of_false (fun h => nomatch h) fun h => hn h.1

section Enclosed

variable {o c : Char} (h : pairs o c = true)
include h

theorem enclosed (ht : Balanced t) : Balanced (o :: (t ++ [c])) := by
  have hopen : Scan.start.next o = Scan.start.deeper 1 ∧
      (Scan.start.deeper 1).next c = Scan.start := by
    simp only [pairs, Bool.or_eq_true, Bool.and_eq_true, decide_eq_true_eq] at h
    rcases h with (⟨rfl, rfl⟩ | ⟨rfl, rfl⟩) | ⟨rfl, rfl⟩ <;> exact ⟨rfl, rfl⟩
  have hend : (Scan.start.deeper 1).run (t ++ [c]) = Scan.start := by
    rw [run_concat, run_deeper, ht.run, hopen.2]
  refine ⟨fun p hp => ?_, by rw [Scan.run_cons, hopen.1, hend]; rfl⟩
  cases p with
  | nil => exact Int.le_refl 0
  | cons d p =>
    obtain ⟨rfl, hinside⟩ := List.cons_prefix_cons.mp hp
    rw [Scan.run_cons, hopen.1]
    rcases List.prefix_concat_iff.mp hinside with rfl | hinside
    · rw [hend]
      exact Int.le_refl 0
    · rw [run_deeper]
      exact Int.add_nonneg (ht.level p hinside) (by decide)

theorem nested_enclosed_iff (ht : Balanced t) : Nested (o :: (t ++ [c])) ↔ Nested t := by
  rw [Nested, pending?_enclosed h ht.closed, ht.pending?_eq]
  by_cases hn : Nested t
  · rw [if_pos hn, Option.bind_some, ((pairs_spec h).2.2 []).2]
    exact iff_of_true rfl hn
  · rw [if_neg hn, Option.bind_none]
    exact iff_of_false (fun h => nomatch h) hn

end Enclosed

end Balanced

/-! ### Texts put together -/

/-- The brackets of the text are balanced, and they nest exactly if `p` holds. -/
structure NestsIff (t : List Char) (p : Prop) : Prop where
  balanced : Balanced t
  nested_iff : Nested t ↔ p

namespace NestsIff

variable {a b t : List Char} {p q : Prop}

theorem congr (h : NestsIff t p) (hpq : p ↔ q) : NestsIff t q :=
  ⟨h.balanced, h.nested_iff.trans hpq⟩

theorem of_inert (h : ∀ c ∈ t, Inert c) : NestsIff t True :=
  ⟨.of_inert h, iff_true_intro (Neutral.of_inert h).nested⟩

theorem append (ha : NestsIff a p) (hb : NestsIff b q) : NestsIff (a ++ b) (p ∧ q) :=
  ⟨ha.balanced.append hb.balanced,
    ha.balanced.nested_append_iff.trans (and_congr ha.nested_iff hb.nested_iff)⟩

/-- Characters that do not count stand in front of a text. -/
theorem inert_append (ha : ∀ c ∈ a, Inert c) (hb : NestsIff b q) : NestsIff (a ++ b) q :=
  ((of_inert ha).append hb).congr (and_iff_right trivial)

/-- They stand behind it. -/
theorem append_inert (ha : NestsIff a p) (hb : ∀ c ∈ b, Inert c) : NestsIff (a ++ b) p :=
  (ha.append (of_inert hb)).congr (and_iff_left trivial)

theorem enclosed {o c : Char} (h : pairs o c = true) (ht : NestsIff t p) :
    NestsIff (o :: (t ++ [c])) p :=
  ⟨ht.balanced.enclosed h, (ht.balanced.nested_enclosed_iff h).trans ht.nested_iff⟩

end NestsIff

end Polyshell.Mongo
