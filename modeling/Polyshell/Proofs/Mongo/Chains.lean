/-
  A chain is exactly its calls with dots between them.

  1. **Calls** — `IsCall t`: scanned by itself, `t` does not begin with a blank, never closes more than
     was opened, and ends at the first parenthesis that closes all that was opened.  No call is a part
     of a longer one from its beginning (`IsCall.first`), so a call is found in front of any text.

  2. **One character** — while nothing is closed yet (`Unclosed`), the next character closes the call
     (`insideCall_closes`), closes too much (`insideCall_sinks`), or does neither (`insideCall_stays`).

  3. **Both directions** — a call in front of any text is cut off there (`IsCall.insideCall`), and what
     is cut off is a call with blanks in front of it (`exists_call`).  `splitChain_exact` follows by
     induction over the calls: a chain is cut into some calls exactly if it is these, joined by dots,
     with blanks around each; no text can be cut in two ways.
-/
import Polyshell.Proofs.Mongo.Parsed

namespace Polyshell.Mongo

open Polyshell.Text

/-! ## Calls -/

/-- A parenthesis is opened in the text, outside every string literal. -/
def Opens (t : List Char) : Prop :=
  ∃ p, (p ++ ['(']) <+: t ∧ (Scan.start.run p).structural '(' = true

/-- The text ends in a parenthesis that closes all that was opened. -/
def Closes (t : List Char) : Prop :=
  ∃ p, t = p ++ [')'] ∧ (Scan.start.run p).structural ')' = true ∧
    (Scan.start.run t).depth = 0 ∧ Opens p

/-- One call of a chain, as text. -/
structure IsCall (t : List Char) : Prop where
  head : ∃ c r, t = c :: r ∧ isBlank c = false
  /-- Nothing is closed that was not opened. -/
  level : ∀ p, p <+: t → 0 ≤ (Scan.start.run p).depth
  closes : Closes t
  /-- It ends where this is so for the first time. -/
  first : ∀ p, p <+: t → Closes p → p = t

/-- Texts joined by dots, with blanks around each. -/
inductive Joined : List (List Char) → List Char → Prop
  | last {t w w' : List Char} (hw : Blanks w) (hw' : Blanks w') : Joined [t] (w ++ (t ++ w'))
  | more {t w w' rest : List Char} {ts : List (List Char)} (hw : Blanks w) (hw' : Blanks w')
      (h : Joined ts rest) : Joined (t :: ts) (w ++ (t ++ (w' ++ '.' :: rest)))

/-- The calls of a chain. -/
def IsChain (calls : List (List Char)) (t : List Char) : Prop :=
  (∀ c ∈ calls, IsCall c) ∧ Joined calls t

/-! ## Before a call is closed -/

/-- Nothing was closed too much, and no call was closed. -/
def Unclosed (p : List Char) : Prop :=
  ∀ q, q <+: p → 0 ≤ (Scan.start.run q).depth ∧ ¬ Closes q

theorem not_closes_nil : ¬ Closes [] := by
  rintro ⟨p, h, -⟩
  exact List.cons_ne_nil _ _ (List.append_eq_nil_iff.mp h.symm).2

/-- At the beginning nothing is opened. -/
theorem closed_at_start : false = true ↔ Opens [] := by
  refine ⟨fun h => absurd h Bool.false_ne_true, ?_⟩
  rintro ⟨p, h, -⟩
  exact absurd (List.append_eq_nil_iff.mp (List.prefix_nil.mp h)).2 (List.cons_ne_nil _ _)

theorem Unclosed.nil : Unclosed [] := by
  intro q hq
  obtain rfl := List.prefix_nil.mp hq
  exact ⟨Int.le_refl 0, not_closes_nil⟩

theorem Unclosed.concat {p : List Char} (h : Unclosed p) {c : Char}
    (hlevel : 0 ≤ (Scan.start.run (p ++ [c])).depth) (hopen : ¬ Closes (p ++ [c])) :
    Unclosed (p ++ [c]) := by
  intro q hq
  rcases List.prefix_concat_iff.mp hq with rfl | hq
  · exact ⟨hlevel, hopen⟩
  · exact h q hq

/-- A text becomes a call by what closes it. -/
theorem IsCall.of_unclosed {p : List Char} {c : Char} (h : Unclosed p) (hcloses : Closes (p ++ [c]))
    (hhead : ∃ a r, p ++ [c] = a :: r ∧ isBlank a = false) : IsCall (p ++ [c]) := by
  refine ⟨hhead, fun q hq => ?_, hcloses, fun q hq hq' => ?_⟩
  · rcases List.prefix_concat_iff.mp hq with rfl | hq
    · obtain ⟨-, -, -, hdepth, -⟩ := hcloses
      exact hdepth.ge
    · exact (h q hq).1
  · rcases List.prefix_concat_iff.mp hq with heq | hq
    · exact heq
    · exact absurd hq' (h q hq).2

theorem IsCall.solid {t : List Char} (h : IsCall t) : Solid t := by
  obtain ⟨p, hp, -⟩ := h.closes
  exact ⟨h.head, p, ')', hp, by decide⟩

/-! ## One character -/

theorem run_concat (s : Scan) (p : List Char) (c : Char) : s.run (p ++ [c]) = (s.run p).next c := by
  rw [Scan.run_append, Scan.run_cons, Scan.run_nil]

theorem opens_concat {p : List Char} {c : Char} :
    Opens (p ++ [c]) ↔ Opens p ∨ c = '(' ∧ (Scan.start.run p).structural '(' = true := by
  constructor
  · rintro ⟨q, hq, hs⟩
    rcases List.prefix_concat_iff.mp hq with heq | hq
    · obtain ⟨rfl, hc⟩ := List.append_inj' heq rfl
      exact Or.inr ⟨(List.singleton_inj.mp hc).symm, hs⟩
    · exact Or.inl ⟨q, hq, hs⟩
  · rintro (⟨q, hq, hs⟩ | ⟨rfl, hs⟩)
    · exact ⟨q, hq.trans (List.prefix_append p _), hs⟩
    · exact ⟨p, List.prefix_rfl, hs⟩

theorem closes_concat {p : List Char} {c : Char} :
    Closes (p ++ [c]) ↔ c = ')' ∧ (Scan.start.run p).structural ')' = true ∧
      (Scan.start.run (p ++ [c])).depth = 0 ∧ Opens p := by
  constructor
  · rintro ⟨q, heq, hs, hdepth, ho⟩
    obtain ⟨rfl, hc⟩ := List.append_inj' heq rfl
    exact ⟨List.singleton_inj.mp hc, hs, hdepth, ho⟩
  · rintro ⟨rfl, hs, hdepth, ho⟩
    exact ⟨p, rfl, hs, hdepth, ho⟩

/-- Only characters outside string literals change the depth. -/
theorem depth_concat {p : List Char} {c : Char} (h : (Scan.start.run p).structural c = false) :
    (Scan.start.run (p ++ [c])).depth = (Scan.start.run p).depth := by
  rw [run_concat]
  generalize Scan.start.run p = s at h ⊢
  cases hq : s.quote with
  | some q => exact Scan.next_depth_of_inString s c (by rw [Scan.inString, hq]; rfl)
  | none =>
    rw [Scan.structural, hq, Option.isNone_none, Bool.true_and, Bool.not_eq_false'] at h
    rw [Scan.next, hq]
    simp only [h, if_true]

section Character

variable {p : List Char} {c : Char} {opened : Bool} (whole seen r : List Char)

/-- The call ends here. -/
theorem insideCall_closes (h : Closes (p ++ [c])) (ho : opened = true ↔ Opens p) :
    insideCall whole (Scan.start.run p) opened seen (c :: r) =
      match betweenCalls whole r with
      | .ok calls => .ok (trim (c :: seen).reverse :: calls)
      | .error e => .error e := by
  obtain ⟨rfl, hs, hdepth, hopens⟩ := closes_concat.mp h
  rw [run_concat] at hdepth
  rw [insideCall, if_pos hs, if_neg (by omega), hdepth, ho.mpr hopens]
  rfl

/-- More is closed than was opened. -/
theorem insideCall_sinks (hp : Unclosed p) (h : (Scan.start.run (p ++ [c])).depth < 0) :
    insideCall whole (Scan.start.run p) opened seen (c :: r) = .error (unbalanced whole) := by
  have hs : (Scan.start.run p).structural c = true := by
    by_contra hs
    rw [depth_concat (Bool.eq_false_iff.mpr hs)] at h
    have hlevel := (hp p List.prefix_rfl).1
    omega
  rw [run_concat] at h
  rw [insideCall, if_pos hs, if_pos h]

/-- The call goes on. -/
theorem insideCall_stays (hlevel : 0 ≤ (Scan.start.run (p ++ [c])).depth)
    (h : ¬ Closes (p ++ [c])) (ho : opened = true ↔ Opens p) :
    ∃ opened', (opened' = true ↔ Opens (p ++ [c])) ∧
      insideCall whole (Scan.start.run p) opened seen (c :: r) =
        insideCall whole (Scan.start.run (p ++ [c])) opened' (c :: seen) r := by
  rw [run_concat] at hlevel ⊢
  by_cases hs : (Scan.start.run p).structural c = true
  · refine ⟨opened || c == '(', ?_, ?_⟩
    · rw [opens_concat, Bool.or_eq_true, beq_iff_eq, ho]
      refine or_congr_right ⟨?_, And.left⟩
      rintro rfl
      exact ⟨rfl, hs⟩
    · have hstays : ¬ (decide (c = ')') && ((Scan.start.run p).next c).depth == 0 && opened) = true := by
        rw [Bool.and_eq_true, Bool.and_eq_true, decide_eq_true_eq, beq_iff_eq]
        rintro ⟨⟨rfl, hdepth⟩, hopened⟩
        exact h (closes_concat.mpr ⟨rfl, hs, by rw [run_concat, hdepth], ho.mp hopened⟩)
      rw [insideCall, if_pos hs, if_neg (by omega), if_neg hstays]
  · refine ⟨opened, ?_, ?_⟩
    · rw [opens_concat, ho]
      refine (or_iff_left ?_).symm
      rintro ⟨rfl, hs'⟩
      exact hs hs'
    · rw [insideCall, if_neg hs]

end Character

/-! ## A call in front of any text -/

/-- What follows of a call is read up to its end. -/
theorem insideCall_rest (whole rest : List Char) {q : List Char} :
    ∀ {p : List Char} (seen : List Char) {opened : Bool},
    IsCall (p ++ q) → q ≠ [] → (opened = true ↔ Opens p) →
    insideCall whole (Scan.start.run p) opened seen (q ++ rest) =
      match betweenCalls whole rest with
      | .ok calls => .ok (trim (q.reverse ++ seen).reverse :: calls)
      | .error e => .error e := by
  induction q with
  | nil => exact fun _ _ _ hne _ => absurd rfl hne
  | cons c q ih =>
    intro p seen opened hcall _ ho
    have hprefix : p ++ [c] <+: p ++ c :: q := ⟨q, by rw [List.append_assoc]; rfl⟩
    rw [List.cons_append]
    by_cases hcloses : Closes (p ++ [c])
    · -- where a call is closed for the first time it ends
      have heq := hcall.first _ hprefix hcloses
      obtain rfl : [] = q := (List.cons.inj (List.append_cancel_left heq)).2
      exact insideCall_closes whole seen _ hcloses ho
    · obtain ⟨opened', ho', hstays⟩ := insideCall_stays whole seen (q ++ rest)
        (hcall.level _ hprefix) hcloses ho
      have hne : q ≠ [] := by
        rintro rfl
        exact hcloses hcall.closes
      have hsplit : p ++ c :: q = (p ++ [c]) ++ q := by
        rw [List.append_assoc, List.singleton_append]
      rw [hstays, ih (c :: seen) (hsplit ▸ hcall) hne ho', List.reverse_cons, List.append_assoc,
        List.singleton_append]

/-- A call in front of any text is cut off, without the blanks in front of it. -/
theorem IsCall.insideCall {t : List Char} (h : IsCall t) (whole rest : List Char) {w : List Char}
    (hw : Blanks w) : insideCall whole Scan.start false [] (w ++ (t ++ rest)) =
      match betweenCalls whole rest with
      | .ok calls => .ok (t :: calls)
      | .error e => .error e := by
  have hpiece : trim (t.reverse ++ w.reverse).reverse = t := by
    have htrim := h.solid.trim_padded hw Blanks.nil
    rwa [List.append_nil, ← List.reverse_reverse (w ++ t), List.reverse_append] at htrim
  rw [show Scan.start = Scan.at 0 from rfl,
    insideCall_passed (Int.le_refl 0) whole _ false [] (passed_blanks (Int.le_refl 0) hw),
    List.append_nil]
  have hrest := insideCall_rest whole rest (p := []) w.reverse h h.solid.ne_nil closed_at_start
  rw [hpiece] at hrest
  exact hrest

/-! ## What is cut off -/

/-- Where a call is cut off, it was closed. -/
theorem exists_rest {whole text : List Char} {calls : List (List Char)} :
    ∀ {p seen : List Char} {opened : Bool}, Unclosed p → (opened = true ↔ Opens p) →
    insideCall whole (Scan.start.run p) opened seen text = .ok calls →
    ∃ q c rest calls', text = q ++ c :: rest ∧ Unclosed (p ++ q) ∧ Closes (p ++ q ++ [c]) ∧
      betweenCalls whole rest = .ok calls' ∧
      calls = trim (c :: (q.reverse ++ seen)).reverse :: calls' := by
  induction text with
  | nil =>
    intro p seen opened _ _ h
    rw [insideCall] at h
    split at h <;> cases h
  | cons c r ih =>
    intro p seen opened hp ho h
    by_cases hcloses : Closes (p ++ [c])
    · rw [insideCall_closes whole seen r hcloses ho] at h
      split at h
      · next calls' hrest =>
        cases h
        exact ⟨[], c, r, calls', rfl, by rwa [List.append_nil], by rwa [List.append_nil], hrest, rfl⟩
      · cases h
    · by_cases hlevel : 0 ≤ (Scan.start.run (p ++ [c])).depth
      · obtain ⟨opened', ho', hstays⟩ := insideCall_stays whole seen r hlevel hcloses ho
        rw [hstays] at h
        obtain ⟨q, d, rest, calls', rfl, hq, hd, hrest, rfl⟩ := ih (hp.concat hlevel hcloses) ho' h
        rw [List.append_assoc p, List.singleton_append] at hq hd
        refine ⟨c :: q, d, rest, calls', rfl, hq, hd, hrest, ?_⟩
        rw [List.reverse_cons (a := c), List.append_assoc q.reverse, List.singleton_append]
      · rw [insideCall_sinks whole seen r hp (Int.not_le.mp hlevel)] at h
        cases h

/-- What is cut off is a call, with blanks in front of it. -/
theorem exists_call {whole text : List Char} {calls : List (List Char)}
    (h : insideCall whole Scan.start false [] text = .ok calls) :
    ∃ w t rest calls', text = w ++ (t ++ rest) ∧ Blanks w ∧ IsCall t ∧
      betweenCalls whole rest = .ok calls' ∧ calls = t :: calls' := by
  have hw : Blanks (text.takeWhile isBlank) := fun c hc => List.mem_takeWhile_imp hc
  rw [← List.takeWhile_append_dropWhile (p := isBlank) (l := text), show Scan.start = Scan.at 0 from rfl,
    insideCall_passed (Int.le_refl 0) whole _ false [] (passed_blanks (Int.le_refl 0) hw),
    List.append_nil] at h
  obtain ⟨q, c, rest, calls', htext, hq, hcloses, hrest, rfl⟩ := exists_rest (p := []) Unclosed.nil
    closed_at_start h
  rw [List.nil_append] at hq hcloses
  have hhead : ∃ a r, q ++ [c] = a :: r ∧ isBlank a = false := by
    have hsolid := List.head?_dropWhile_not isBlank text
    rw [htext] at hsolid
    cases q with
    | nil => exact ⟨c, [], rfl, by simpa using hsolid⟩
    | cons a q => exact ⟨a, q ++ [c], rfl, by simpa using hsolid⟩
  have hcall : IsCall (q ++ [c]) := .of_unclosed hq hcloses hhead
  refine ⟨text.takeWhile isBlank, q ++ [c], rest, calls', ?_, hw, hcall, hrest, ?_⟩
  · rw [List.append_assoc, List.singleton_append, ← htext, List.takeWhile_append_dropWhile]
  · have htrim := hcall.solid.trim_padded hw Blanks.nil
    rw [List.append_nil] at htrim
    rw [List.reverse_cons, List.reverse_append, List.reverse_reverse, List.reverse_reverse,
      List.append_assoc, htrim]

/-! ## Chains -/

/-- Behind a call there are blanks, and the end or a dot. -/
theorem exists_between {whole text : List Char} {calls : List (List Char)}
    (h : betweenCalls whole text = .ok calls) :
    ∃ w, Blanks w ∧ (text = w ∧ calls = [] ∨
      ∃ rest, text = w ++ '.' :: rest ∧ insideCall whole Scan.start false [] rest = .ok calls) := by
  induction text with
  | nil =>
    rw [betweenCalls] at h
    cases h
    exact ⟨[], Blanks.nil, Or.inl ⟨rfl, rfl⟩⟩
  | cons c r ih =>
    rw [betweenCalls] at h
    split at h
    · next hc =>
      obtain ⟨w, hw, hends⟩ := ih h
      refine ⟨c :: w, List.forall_mem_cons.mpr ⟨hc, hw⟩, ?_⟩
      rcases hends with ⟨rfl, hcalls⟩ | ⟨rest, rfl, hrest⟩
      · exact Or.inl ⟨rfl, hcalls⟩
      · exact Or.inr ⟨rest, rfl, hrest⟩
    · split at h
      · next hdot =>
        subst hdot
        exact ⟨[], Blanks.nil, Or.inr ⟨r, rfl, h⟩⟩
      · cases h

/-- Behind its last call a chain may have blanks. -/
theorem betweenCalls_blanks (whole : List Char) {w : List Char} (hw : Blanks w) :
    betweenCalls whole w = .ok [] := by
  induction w with
  | nil => rfl
  | cons c w ih =>
    rw [betweenCalls, hw c List.mem_cons_self, if_pos rfl]
    exact ih fun d hd => hw d (List.mem_cons_of_mem c hd)

/-- A chain is cut into its calls. -/
theorem IsChain.insideCall {calls : List (List Char)} {t : List Char} (h : IsChain calls t)
    (whole : List Char) : Mongo.insideCall whole Scan.start false [] t = .ok calls := by
  obtain ⟨hcalls, hjoined⟩ := h
  induction hjoined with
  | last hw hw' =>
    rw [(List.forall_mem_singleton.mp hcalls).insideCall whole _ hw, betweenCalls_blanks whole hw']
  | more hw hw' _ ih =>
    obtain ⟨hcall, hrest⟩ := List.forall_mem_cons.mp hcalls
    rw [hcall.insideCall whole _ hw, betweenCalls_dot whole hw', show Scan.at 0 = Scan.start from rfl,
      ih hrest]

/-- What is cut into calls is their chain. -/
theorem isChain_of_insideCall {whole : List Char} : ∀ {calls : List (List Char)} {t : List Char},
    insideCall whole Scan.start false [] t = .ok calls → IsChain calls t := by
  intro calls
  induction calls with
  | nil =>
    intro t h
    obtain ⟨_, _, _, _, _, _, _, _, hcalls⟩ := exists_call h
    cases hcalls
  | cons c calls ih =>
    intro t h
    obtain ⟨w, c, behind, calls, rfl, hw, hc, hbehind, hcalls⟩ := exists_call h
    cases hcalls
    obtain ⟨w', hw', ⟨rfl, rfl⟩ | ⟨rest, rfl, hrest⟩⟩ := exists_between hbehind
    · exact ⟨List.forall_mem_singleton.mpr hc, .last hw hw'⟩
    · obtain ⟨hcalls, hjoined⟩ := ih hrest
      exact ⟨List.forall_mem_cons.mpr ⟨hc, hcalls⟩, .more hw hw' hjoined⟩

theorem chainCalls_eq_ok_iff {t : List Char} {calls : List (List Char)} :
    chainCalls t = .ok calls ↔ IsChain calls t :=
  ⟨isChain_of_insideCall, fun h => h.insideCall t⟩

/-- Pieces come back as finished texts. -/
theorem map_ofList_eq_ok_iff {ε : Type} {x : Except ε (List (List Char))} {texts : List String} :
    (x.map fun pieces => pieces.map String.ofList) = .ok texts ↔
      x = .ok (texts.map String.toList) := by
  have hforth : (String.toList ∘ String.ofList) = id := funext fun _ => String.toList_ofList
  have hback : (String.ofList ∘ String.toList) = id := funext fun _ => String.ofList_toList
  constructor
  · intro h
    cases x with
    | error e => cases h
    | ok pieces =>
      cases h
      rw [List.map_map, hforth, List.map_id]
  · rintro rfl
    rw [Except.map, List.map_map, hback, List.map_id]

theorem splitChain_eq_ok_iff {text : String} {calls : List String} :
    splitChain text = .ok calls ↔ IsChain (calls.map String.toList) text.toList :=
  map_ofList_eq_ok_iff.trans chainCalls_eq_ok_iff

/-- A chain is cut into calls exactly if it is these joined by dots with blanks around each.  It is so
    in one way at most, and if in none, cutting it is an error. -/
theorem splitChain_exact (text : String) :
    (∀ calls : List String, splitChain text = .ok calls ↔
      calls ≠ [] ∧ (∀ c ∈ calls, IsCall c.toList) ∧ Joined (calls.map String.toList) text.toList) ∧
    (∀ calls calls' : List String, IsChain (calls.map String.toList) text.toList →
      IsChain (calls'.map String.toList) text.toList → calls = calls') ∧
    ((∃ e, splitChain text = .error e) ↔
      ¬ ∃ calls : List String, IsChain (calls.map String.toList) text.toList) := by
  refine ⟨fun calls => ?_, fun calls calls' h h' => ?_, ?_, ?_⟩
  · rw [splitChain_eq_ok_iff, IsChain, List.forall_mem_map]
    refine (and_iff_right_of_imp ?_).symm
    rintro ⟨-, hjoined⟩ rfl
    cases hjoined
  · rw [← splitChain_eq_ok_iff] at h h'
    exact Except.ok.inj (h.symm.trans h')
  · rintro ⟨e, he⟩ ⟨calls, hcalls⟩
    rw [splitChain_eq_ok_iff.mpr hcalls] at he
    cases he
  · intro hnone
    cases h : splitChain text with
    | error e => exact ⟨e, rfl⟩
    | ok calls => exact absurd ⟨calls, splitChain_eq_ok_iff.mp h⟩ hnone

/-- Dots and parentheses in string literals are no ends, and a dot in front of a name is part of it. -/
theorem splitChain_exact_quoted :
    splitChain " a.find( ').(' , [(1)] )\t. .b()" = .ok ["a.find( ').(' , [(1)] )", ".b()"] ∧
      IsCall ".b()".toList := by
  have h : splitChain " a.find( ').(' , [(1)] )\t. .b()" =
      .ok ["a.find( ').(' , [(1)] )", ".b()"] := by decide +kernel
  obtain ⟨-, hcalls, -⟩ := ((splitChain_exact _).1 _).mp h
  exact ⟨h, hcalls _ (List.mem_cons_of_mem _ List.mem_cons_self)⟩

end Polyshell.Mongo
