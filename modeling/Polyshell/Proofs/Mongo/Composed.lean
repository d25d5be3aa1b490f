/-
  Commands that are put together from the texts of their arguments.

  1. **Arguments** — `Writes a t`: whatever stands around it, the normal form makes of `t` a text that is
     an argument, that is passed over when calls are cut, and that is read as `a`.  All terms are written
     so (`Writes.of_term`).

  2. **Calls** — `Between args s`: `s` may stand between the parentheses of a call with the arguments
     `args`.

  3. **Commands** — `parse_chained`: calls with such texts between their parentheses, joined by dots
     behind a collection, are read as the command of these calls.  The induction is on the calls, and
     what it carries is a text of the chain in normal form that is cut into them
     (`Chained.reads`).
-/
import Polyshell.Proofs.Mongo.Arguments
import Polyshell.Proofs.Mongo.Naming

namespace Polyshell.Mongo

open Polyshell.Text

/-! ## Texts that are passed -/

namespace Passed

variable {b : Bool} {d : Int} {s s' : Scan} {t : List Char}

/-- Where no blank may stand, none does where one may. -/
theorem of_keeps (h : Keeps d s t s') : Passed true d s t s' := by
  induction t generalizing s with
  | nil => exact h
  | cons c r ih =>
    refine ⟨fun hc => ?_, ih h.2⟩
    obtain ⟨-, hrest⟩ := h.1 hc
    exact ⟨Or.inr rfl, hrest⟩

theorem run (h : Passed b d s t s') : s.run t = s' := by
  induction t generalizing s with
  | nil => exact h
  | cons c r ih => exact ih h.2

/-- What is passed closes nothing that was opened in front of it, and has no commas outside of
    brackets. -/
theorem uncut {p : List Char} (hp : Uncut p) (h : Passed b 0 (Scan.start.run p) t s') :
    Uncut (p ++ t) := by
  induction t generalizing p with
  | nil =>
    rw [List.append_nil]
    exact hp
  | cons c r ih =>
    have hlevel := hp.level p List.prefix_rfl
    have hnext : Uncut (p ++ [c]) := by
      by_cases hs : (Scan.start.run p).structural c = true
      · obtain ⟨-, -, -, hdepth, hcomma⟩ := h.1 hs
        rw [← run_concat] at hdepth
        refine hp.concat hdepth ?_
        rintro rfl -
        have hinside := hcomma rfl
        rw [depth_next_comma] at hinside
        omega
      · rw [Bool.not_eq_true] at hs
        refine hp.concat ?_ ?_
        · rw [depth_concat hs]
          exact hlevel
        · rintro rfl hs'
          rw [hs'] at hs
          cases hs
    have hrest := h.2
    rw [← run_concat] at hrest
    have hall := ih hnext hrest
    rwa [List.append_assoc, List.singleton_append] at hall

/-- A text that is passed from a state to the same is a piece. -/
theorem isPiece (h : Passed b 0 (Scan.at 0) t (Scan.at 0)) : IsPiece t := by
  refine ⟨uncut (p := []) Uncut.nil h, ?_⟩
  rw [show Scan.start = Scan.at 0 from rfl, h.run]
  rfl

end Passed

/-! ## Arguments -/

/-- A text in normal form that is one argument and is read as `a`. -/
structure Settled (a : Argument) (t : List Char) : Prop where
  argument : IsArgument t
  passed : PassedOver t
  read : ∀ ambient, Argument.ofText ambient t = .ok a

/-- A text of which the normal form makes such a text, inside the parentheses of a call. -/
structure Writes (a : Argument) (t : List Char) : Prop where
  solid : Solid t
  normal : ∃ t', CollapsesTo 1 t t' ∧ Settled a t'

theorem Writes.of_term {t : Term} (ht : t.Valid) : Writes t.argument t.text where
  solid := Term.solid ht
  normal := by
    refine ⟨t.text, .of_keeps (Term.keeps ht 1), ⟨Term.solid ht, ?_⟩, ?_, Term.ofText_argument ht⟩
    · exact Passed.isPiece (Term.keeps ht 0)
    · exact .of_passed ((Term.keeps ht 1).weaken (by decide))

/-! ## Between the parentheses of a call -/

/-- A text that may stand between the parentheses of a call with these arguments. -/
def Between (args : List Argument) (s : List Char) : Prop :=
  ∃ s' texts, CollapsesTo 1 s s' ∧ PassedOver s' ∧ IsArgumentList texts s' ∧
    ∀ ambient, Command.readArguments ambient texts = .ok args

namespace Between

theorem none : Between [] [] := by
  refine ⟨[], [], fun _ => rfl, .nil, ⟨?_, Or.inl ⟨rfl, Blanks.nil⟩⟩, fun _ => rfl⟩
  exact fun t ht => absurd ht List.not_mem_nil

section Some

variable {a b : Argument} {t u : List Char}

theorem one (h : Writes a t) : Between [a] t := by
  obtain ⟨-, t', hcollapse, hargument, hpassed, hread⟩ := h
  refine ⟨t', [t'], hcollapse, hpassed, ⟨List.forall_mem_singleton.mpr hargument, ?_⟩, ?_⟩
  · refine Or.inr ⟨List.cons_ne_nil _ _, [t'], .cons ?_ .nil, Or.inl List.intercalate_singleton.symm⟩
    exact ⟨[], [], Blanks.nil, Blanks.nil, (List.append_nil t').symm⟩
  · intro ambient
    rw [Command.readArguments, hread]
    rfl

/-- Two arguments with a comma between them, and any blanks around it. -/
theorem two (h : Writes a t) {w w' : List Char} (hw : Blanks w) (hw' : Blanks w')
    (h' : Writes b u) : Between [a, b] (t ++ (w ++ ',' :: (w' ++ u))) := by
  obtain ⟨-, t', hct, hat, hpt, hrt⟩ := h
  obtain ⟨hsolid, u', hcu, hau, hpu, hru⟩ := h'
  have hv : Blanks (squeezed w) := Blanks.squeezed w
  have hv' : Blanks (squeezed w') := Blanks.squeezed w'
  refine ⟨t' ++ (squeezed w ++ ',' :: (squeezed w' ++ u')), [t', u'], ?_, ?_, ⟨?_, ?_⟩, ?_⟩
  · exact hct.append (.separated hw hw' (by decide) rfl hsolid hcu)
  · have hblanks : ∀ {v : List Char}, Blanks v → PassedOver v := fun hv =>
      .of_passed (passed_blanks (by decide) hv)
    exact hpt.append ((hblanks hv).append
      (.append (.of_passed (keeps_comma (by decide))) ((hblanks hv').append hpu)))
  · exact List.forall_mem_cons.mpr ⟨hat, List.forall_mem_singleton.mpr hau⟩
  · refine Or.inr ⟨List.cons_ne_nil _ _, [t' ++ squeezed w, squeezed w' ++ u'], ?_, Or.inl ?_⟩
    · refine .cons ⟨[], squeezed w, Blanks.nil, hv, rfl⟩ (.cons ?_ .nil)
      exact ⟨squeezed w', [], hv', Blanks.nil, by rw [List.append_nil]⟩
    · rw [intercalate_cons (List.cons_ne_nil _ _), List.intercalate_singleton, List.append_assoc]
  · intro ambient
    rw [Command.readArguments, hrt, Command.readArguments, hru]
    rfl

end Some
end Between

/-! ## Chains -/

/-- A name and parentheses, with `s` between them. -/
def parens (name s : List Char) : List Char := name ++ '(' :: (s ++ [')'])

/-- Calls with such texts between their parentheses, joined by dots. -/
inductive Chained : List Call → List Char → Prop
  | last {name s : List Char} {args : List Argument} (hn : IsName name) (h : Between args s) :
      Chained [⟨String.ofList name, args⟩] (parens name s)
  | more {name s t : List Char} {args : List Argument} {cs : List Call} (hn : IsName name)
      (h : Between args s) (hs : Chained cs t) :
      Chained (⟨String.ofList name, args⟩ :: cs) (parens name s ++ '.' :: t)

theorem readCall_parens {name s : List Char} {texts : List (List Char)} {args : List Argument}
    (hn : IsName name) (ambient : Ambient) (htexts : argumentTexts s = .ok texts)
    (hargs : Command.readArguments ambient texts = .ok args) :
    Command.readCall ambient (parens name s) = .ok ⟨String.ofList name, args⟩ := by
  rw [parens, Command.readCall, callParts_parens hn]
  show (do
    let texts ← argumentTexts s
    let args ← Command.readArguments ambient texts
    return (⟨_, args⟩ : Call)) = _
  rw [htexts]
  show (do
    let args ← Command.readArguments ambient texts
    return (⟨_, args⟩ : Call)) = _
  rw [hargs]
  rfl

/-- The normal form of one such call is a call of the same name. -/
theorem collapsesTo_parens {name s s' : List Char} (hn : IsName name) (h : CollapsesTo 1 s s') :
    CollapsesTo 0 (parens name s) (parens name s') :=
  .append (.of_keeps (hn.keeps 0)) (.parens h)

namespace Chained

variable {cs : List Call} {t : List Char}

theorem solid (h : Chained cs t) : Solid t := by
  induction h with
  | last hn _ => exact CallText.solid_parens hn _
  | more hn _ _ ih => exact (CallText.solid_parens hn _).append ['.'] ih

theorem getLast? (h : Chained cs t) : t.getLast? = some ')' := by
  induction h with
  | last => simp [parens, List.getLast?_cons]
  | more _ _ _ ih => simp [List.getLast?_append, List.getLast?_cons, ih]

/-- The normal form of a chain is cut into calls, and these are read. -/
theorem reads (h : Chained cs t) : ∃ t' texts, CollapsesTo 0 t t' ∧
    (∀ whole, insideCall whole (Scan.at 0) false [] t' = .ok texts) ∧
    ∀ ambient, Command.readCalls ambient texts = .ok cs := by
  induction h with
  | @last name s args hn h =>
    obtain ⟨s', texts, hcollapse, hpassed, hlist, hread⟩ := h
    refine ⟨parens name s', [parens name s'], collapsesTo_parens hn hcollapse, fun whole => ?_,
      fun ambient => ?_⟩
    · have hcall := insideCall_parens hn hpassed whole [] Blanks.nil
      rw [List.append_nil] at hcall
      rw [parens, hcall, betweenCalls]
    · rw [Command.readCalls, readCall_parens hn ambient hlist.argumentTexts (hread ambient)]
      rfl
  | @more name s t args cs hn h _ ih =>
    obtain ⟨s', texts, hcollapse, hpassed, hlist, hread⟩ := h
    obtain ⟨t', calls, hrest, hcut, hcalls⟩ := ih
    refine ⟨parens name s' ++ '.' :: t', parens name s' :: calls, ?_, fun whole => ?_,
      fun ambient => ?_⟩
    · have hdot : CollapsesTo 0 ['.'] ['.'] := .of_keeps (keeps_word (Int.le_refl 0) (by decide))
      exact (collapsesTo_parens hn hcollapse).append (hdot.append hrest)
    · rw [parens, insideCall_parens hn hpassed whole _ Blanks.nil,
        show betweenCalls whole ('.' :: t') = _ from betweenCalls_dot whole Blanks.nil t', hcut]
    · rw [Command.readCalls, readCall_parens hn ambient hlist.argumentTexts (hread ambient),
        hcalls]
      rfl

end Chained

/-! ## Commands -/

/-- A chain behind a collection is read as the command of its calls. -/
theorem parse_chained (ambient : Ambient) {name : List Char} (hname : IsCollection name)
    {primary : Call} {others : List Call} {t : List Char} (h : Chained (primary :: others) t) :
    Command.parse ambient (String.ofList (dotFront name ++ t)) =
      .ok ⟨String.ofList name, primary.method, primary.args, others⟩ := by
  obtain ⟨t', texts, hcollapse, hcut, hread⟩ := h.reads
  obtain ⟨hsolid, hlast⟩ := solid_beginning name
  have hend : ending t = t := by
    obtain ⟨l, c, heq, hc⟩ := h.solid.last
    have htrim : trimEnd t = t := by
      rw [heq]
      exact trimEnd_append_solid l c hc
    have hdrop : dropLast? ';' t = none := by
      rw [dropLast?, h.getLast?, if_neg (by decide)]
    rw [ending, htrim, hdrop]
    exact htrim
  have hwhole := hcollapse []
  rw [List.append_nil, collapse, List.append_nil] at hwhole
  rw [Command.parse, String.toList_ofList, dotFront,
    normalized_front hsolid hlast (collapsesTo_dot hname), hend, ← dotFront,
    show Scan.start = Scan.at 0 from rfl, hwhole, ofNormalized_dot_iff hname]
  exact ⟨primary, others, ⟨texts, isChain_of_insideCall (hcut []), hread ambient⟩, rfl⟩

end Polyshell.Mongo
