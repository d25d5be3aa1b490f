/-
  The brackets of a command that is read.

  A chain is cut where the scan counts no open bracket, and so are arguments; the kinds of brackets
  matter to the reader of a literal only.

  1. **Pieces** — texts between commas or dots, with blanks around them, are balanced and nest together
     exactly if each of them is and does (`IsArgumentList.nestsIff`, `Joined.nestsIff`).

  2. **Calls** — a call is a name and its arguments between parentheses (`exists_of_callParts`), so it
     nests exactly if its arguments do (`nestsIff_call`).

  3. **Commands** — `brackets_of_parse`: the brackets of a command that is read are balanced, and they
     nest exactly if those of each argument do; the only arguments that may not are bare identifiers,
     and those with a call that is cut inside a string literal.
-/
import Polyshell.Proofs.Except
import Polyshell.Proofs.Mongo.Nesting

namespace Polyshell.Mongo

open Polyshell.Text

/-! ## Pieces -/

theorem IsPiece.balanced {t : List Char} (h : IsPiece t) : Balanced t := ⟨h.uncut.level, h.settled⟩

/-- Texts with commas between them. -/
theorem nestsIff_intercalate {qs : List (List Char)} (h : ∀ q ∈ qs, Balanced q) :
    NestsIff ([','].intercalate qs) (∀ q ∈ qs, Nested q) := by
  induction qs with
  | nil => exact (NestsIff.of_inert (inert_of_all rfl)).congr (by simp)
  | cons q qs ih =>
    obtain ⟨hq, hqs⟩ := List.forall_mem_cons.mp h
    have hfirst : NestsIff q (Nested q) := ⟨hq, Iff.rfl⟩
    rw [List.forall_mem_cons]
    cases qs with
    | nil =>
      rw [List.intercalate_singleton]
      exact hfirst.congr (by simp)
    | cons q' qs =>
      rw [intercalate_cons (List.cons_ne_nil q' qs), ← List.singleton_append]
      exact hfirst.append ((ih hqs).inert_append (inert_of_all (by decide)))

/-- Blanks around arguments make no difference. -/
theorem nested_of_padded {args qs : List (List Char)} (hargs : ∀ a ∈ args, IsArgument a)
    (h : List.Forall₂ Padded args qs) :
    (∀ q ∈ qs, Balanced q) ∧ ((∀ q ∈ qs, Nested q) ↔ ∀ a ∈ args, Nested a) := by
  induction h with
  | nil => exact ⟨fun q hq => absurd hq List.not_mem_nil, by simp⟩
  | @cons a q args qs hq _ ih =>
    obtain ⟨ha, hrest⟩ := List.forall_mem_cons.mp hargs
    obtain ⟨hbalanced, hnested⟩ := ih hrest
    have hpadded : NestsIff q (Nested a) := by
      obtain ⟨w, w', hw, hw', rfl⟩ := hq
      exact (NestsIff.append_inert ⟨ha.piece.balanced, Iff.rfl⟩ hw'.inert).inert_append hw.inert
    rw [List.forall_mem_cons, List.forall_mem_cons, List.forall_mem_cons, hpadded.nested_iff, hnested]
    exact ⟨⟨hpadded.balanced, hbalanced⟩, Iff.rfl⟩

/-- The arguments between the parentheses of a call. -/
theorem IsArgumentList.nestsIff {args : List (List Char)} {inner : List Char}
    (h : IsArgumentList args inner) : NestsIff inner (∀ a ∈ args, Nested a) := by
  obtain ⟨hargs, ⟨rfl, hblank⟩ | ⟨-, qs, hpadded, htext⟩⟩ := h
  · exact (NestsIff.of_inert hblank.inert).congr (by simp)
  · obtain ⟨hbalanced, hnested⟩ := nested_of_padded hargs hpadded
    rcases htext with rfl | ⟨w, hw, rfl⟩
    · exact (nestsIff_intercalate hbalanced).congr hnested
    · have hall : ∀ q ∈ qs ++ [w], Balanced q := List.forall_mem_append.mpr
        ⟨hbalanced, List.forall_mem_singleton.mpr (.of_inert hw.inert)⟩
      refine (nestsIff_intercalate hall).congr (Iff.trans ?_ hnested)
      rw [List.forall_mem_append, List.forall_mem_singleton]
      exact and_iff_left (neutral_blanks hw).nested

/-- Texts joined by dots. -/
theorem Joined.nestsIff {ts : List (List Char)} {t : List Char} {p : List Char → Prop}
    (h : Joined ts t) (hts : ∀ a ∈ ts, NestsIff a (p a)) : NestsIff t (∀ a ∈ ts, p a) := by
  induction h with
  | last hw hw' =>
    rw [List.forall_mem_singleton] at hts ⊢
    exact (hts.append_inert hw'.inert).inert_append hw.inert
  | @more a w w' rest ts hw hw' _ ih =>
    obtain ⟨ha, hrest⟩ := List.forall_mem_cons.mp hts
    rw [List.forall_mem_cons, ← List.singleton_append]
    have hbehind := (ih hrest).inert_append (inert_of_all (t := ['.']) (by decide))
    exact (ha.append (hbehind.inert_append hw'.inert)).inert_append hw.inert

/-! ## Calls -/

/-- The texts of the arguments of a call, if it is one. -/
def callArguments (call : List Char) : List (List Char) :=
  match callParts call with
  | .error _ => []
  | .ok (_, inner) =>
    match argumentTexts inner with
    | .error _ => []
    | .ok args => args

theorem trim_inert {t : List Char} (h : ∀ c ∈ trim t, Inert c) : ∀ c ∈ t, Inert c := by
  obtain ⟨w, w', hw, hw', hsplit⟩ := exists_trim t
  rw [hsplit]
  intro c hc
  rcases List.mem_append.mp hc with hc | hc
  · exact hw.inert c hc
  · exact (List.mem_append.mp hc).elim (h c) (hw'.inert c)

/-- A call is its name and the text between its parentheses. -/
theorem exists_of_callParts {call name inner : List Char} (hsolid : Solid call)
    (h : callParts call = .ok (name, inner)) :
    ∃ front, call = front ++ '(' :: (inner ++ [')']) ∧ ∀ c ∈ front, Inert c := by
  simp only [callParts, hsolid.trim] at h
  split at h
  · cases h
  · next front back hcut =>
    obtain ⟨rfl, -⟩ := cut_spec hcut
    split at h
    · cases h
    · next inner' hclose =>
      rw [dropLast?] at hclose
      split at hclose
      · next hlast =>
        obtain ⟨r, rfl⟩ := List.getLast?_eq_some_iff.mp hlast
        rw [List.dropLast_concat] at hclose
        cases hclose
        split at h
        · next hname =>
          cases h
          refine ⟨front, rfl, trim_inert fun c hc => .of_isPlain (isPlain_of_isNameChar ?_)⟩
          exact List.all_eq_true.mp (Bool.and_eq_true_iff.mp hname).2 c hc
        · cases h
      · cases hclose

/-- A call nests exactly if its arguments do. -/
theorem nestsIff_call {call name inner : List Char} {args : List (List Char)} (hcall : IsCall call)
    (hparts : callParts call = .ok (name, inner)) (hargs : argumentTexts inner = .ok args) :
    callArguments call = args ∧ NestsIff call (∀ a ∈ args, Nested a) := by
  obtain ⟨front, rfl, hfront⟩ := exists_of_callParts hcall.solid hparts
  refine ⟨by simp only [callArguments, hparts, hargs], ?_⟩
  exact ((isArgumentList_of_argumentTexts hargs).nestsIff.enclosed (by decide)).inert_append hfront

/-! ## Commands -/

/-- The texts of the arguments of a command behind `db.`, call by call. -/
def argumentSources (command : List Char) : List (List Char) :=
  match (dropLeading? "db.".toList command).bind Command.collectionParts? with
  | none => []
  | some (_, chain) =>
    match chainCalls chain with
    | .error _ => []
    | .ok calls => calls.flatMap callArguments

theorem exists_of_readArguments {ambient : Ambient} {texts : List (List Char)} {args : List Argument}
    (h : Command.readArguments ambient texts = .ok args) :
    ∀ t ∈ texts, ∃ a, Argument.ofText ambient t = .ok a := by
  induction texts generalizing args with
  | nil => exact fun t ht => absurd ht List.not_mem_nil
  | cons t texts ih =>
    rw [Command.readArguments] at h
    split at h
    · cases h
    · next a ha =>
      cases hrest : Command.readArguments ambient texts with
      | error e =>
        rw [hrest] at h
        cases h
      | ok rest => exact List.forall_mem_cons.mpr ⟨⟨a, ha⟩, ih hrest⟩

/-- A call that is read has arguments, and these are read. -/
theorem exists_of_readCall {ambient : Ambient} {call : List Char} {c : Call}
    (h : Command.readCall ambient call = .ok c) :
    ∃ name inner args, callParts call = .ok (name, inner) ∧ argumentTexts inner = .ok args ∧
      ∀ t ∈ args, ∃ a, Argument.ofText ambient t = .ok a := by
  obtain ⟨⟨name, inner⟩, hparts, h⟩ := exists_of_bind h
  obtain ⟨args, hargs, h⟩ := exists_of_bind h
  obtain ⟨read, hread, -⟩ := exists_of_bind h
  exact ⟨name, inner, args, hparts, hargs, exists_of_readArguments hread⟩

theorem exists_of_readCalls {ambient : Ambient} {texts : List (List Char)} {calls : List Call}
    (h : Command.readCalls ambient texts = .ok calls) :
    ∀ t ∈ texts, ∃ c, Command.readCall ambient t = .ok c := by
  induction texts generalizing calls with
  | nil => exact fun t ht => absurd ht List.not_mem_nil
  | cons t texts ih =>
    rw [Command.readCalls] at h
    split at h
    · cases h
    · next c hc =>
      cases hrest : Command.readCalls ambient texts with
      | error e =>
        rw [hrest] at h
        cases h
      | ok rest => exact List.forall_mem_cons.mpr ⟨⟨c, hc⟩, ih hrest⟩

/-- In front of a chain stands the name of a collection with its dot, or nothing. -/
theorem exists_of_collectionParts? {rest chain : List Char} {named : Option (List Char)}
    (h : Command.collectionParts? rest = some (named, chain))
    (hname : ∀ c ∈ named.getD [], Command.isCollectionChar c = true) :
    ∃ lead, rest = lead ++ chain ∧ ∀ c ∈ lead, Inert c := by
  unfold Command.collectionParts? at h
  split at h
  · next front back hcut =>
    obtain ⟨rfl, -⟩ := cut_spec hcut
    split at h
    · cases h
      exact ⟨[], rfl, fun c hc => absurd hc List.not_mem_nil⟩
    · cases h
      refine ⟨front ++ ['.'], by rw [List.append_assoc, List.singleton_append], ?_⟩
      refine List.forall_mem_append.mpr ⟨trim_inert fun c hc => ?_, inert_of_all (by decide)⟩
      exact .of_isPlain (isPlain_of_isCollectionChar (hname c hc)).1
  · split at h
    · cases h
      exact ⟨[], rfl, fun c hc => absurd hc List.not_mem_nil⟩
    · cases h

/-- The arguments of a command behind `db.` are those of the calls of its chain. -/
theorem argumentSources_of_chain {rest chain : List Char} {named : Option (List Char)}
    {texts : List (List Char)} (hparts : Command.collectionParts? rest = some (named, chain))
    (htexts : chainCalls chain = .ok texts) :
    argumentSources ("db.".toList ++ rest) = texts.flatMap callArguments := by
  have hdrop : dropLeading? "db.".toList ("db.".toList ++ rest) = some rest := rfl
  rw [argumentSources, hdrop, Option.bind_some, hparts]
  dsimp only
  rw [htexts]

/-- A command behind `db.` is the calls of a chain, with nothing in front that counts. -/
theorem exists_of_ofNormalized {ambient : Ambient} {rest : List Char} {c : Command}
    (h : Command.ofNormalized ambient ("db.".toList ++ rest) = .ok c) :
    ∃ lead chain texts calls, "db.".toList ++ rest = lead ++ chain ∧ (∀ c ∈ lead, Inert c) ∧
      IsChain texts chain ∧ Command.readCalls ambient texts = .ok calls ∧
      argumentSources ("db.".toList ++ rest) = texts.flatMap callArguments := by
  -- no keyword begins with a `d`
  have hexpression : Command.ofExpression ambient rest ("db.".toList ++ rest) = .ok c := h
  unfold Command.ofExpression at hexpression
  split at hexpression
  · cases hexpression
  · next named chain hparts =>
    dsimp only at hexpression
    split at hexpression
    · cases hexpression
    · next hnamed =>
      obtain ⟨texts, htexts, hexpression⟩ := exists_of_bind hexpression
      obtain ⟨calls, hcalls, -⟩ := exists_of_bind hexpression
      have hname : ∀ c ∈ named.getD [], Command.isCollectionChar c = true := by
        cases named with
        | none => exact fun c hc => absurd hc List.not_mem_nil
        | some name =>
          rw [Option.isSome_some, Bool.true_and, Bool.not_eq_true', Bool.not_eq_false,
            Bool.and_eq_true] at hnamed
          exact List.all_eq_true.mp hnamed.2
      obtain ⟨lead, rfl, hlead⟩ := exists_of_collectionParts? hparts hname
      refine ⟨"db.".toList ++ lead, chain, texts, calls, (List.append_assoc _ _ _).symm, ?_,
        chainCalls_eq_ok_iff.mp htexts, hcalls, ?_⟩
      · exact List.forall_mem_append.mpr ⟨inert_of_all (by decide), hlead⟩
      · exact argumentSources_of_chain hparts htexts

/-- **The brackets of a command that is read** are balanced outside of string literals, and they nest by
    kind exactly if those of each argument do.  An argument that is read as anything but a bare
    identifier nests, unless a call in it is cut inside a string literal. -/
theorem brackets_of_parse {ambient : Ambient} {text : String} {c : Command}
    (h : Command.parse ambient text = .ok c) (hdb : "db.".toList <+: normalized text.toList) :
    Balanced (normalized text.toList) ∧
    (Nested (normalized text.toList) ↔
      ∀ t ∈ argumentSources (normalized text.toList), Nested t) ∧
    ∀ t ∈ argumentSources (normalized text.toList), ∃ a, Argument.ofText ambient t = .ok a ∧
      ((∀ s, a ≠ .raw s) → ¬ CutsString t → Nested t) := by
  rw [Command.parse] at h
  generalize normalized text.toList = command at h hdb ⊢
  obtain ⟨rest, rfl⟩ := hdb
  obtain ⟨lead, chain, texts, calls, hsplit, hlead, ⟨htexts, hjoined⟩, hcalls, hsources⟩ :=
    exists_of_ofNormalized h
  rw [hsources, hsplit]
  have hcall : ∀ t ∈ texts, NestsIff t (∀ a ∈ callArguments t, Nested a) ∧
      ∀ a ∈ callArguments t, IsArgument a ∧ ∃ x, Argument.ofText ambient a = .ok x := by
    intro t ht
    obtain ⟨call, hread⟩ := exists_of_readCalls hcalls t ht
    obtain ⟨name, inner, args, hparts, hargs, hvalues⟩ := exists_of_readCall hread
    obtain ⟨rfl, hnests⟩ := nestsIff_call (htexts t ht) hparts hargs
    exact ⟨hnests, fun a ha =>
      ⟨(isArgumentList_of_argumentTexts hargs).1 a ha, hvalues a ha⟩⟩
  have hchain := (hjoined.nestsIff fun t ht => (hcall t ht).1).inert_append hlead
  refine ⟨hchain.balanced, hchain.nested_iff.trans ?_, ?_⟩
  · simp only [List.forall_mem_flatMap]
  · intro a ha
    obtain ⟨t, ht, ha⟩ := List.mem_flatMap.mp ha
    obtain ⟨hargument, x, hx⟩ := (hcall t ht).2 a ha
    have htrimmed : Argument.ofTrimmed ambient a = .ok x := by
      rw [Argument.ofText, hargument.solid.trim] at hx
      exact hx
    exact ⟨x, hx, fun hraw hcut => nested_of_ofTrimmed htrimmed hraw hcut⟩

/-- The object nests, with a parenthesis in a string; the identifier behind it does not, but is
    balanced. -/
theorem brackets_of_parse_mixed :
    Command.parse ⟨0, fun _ => ⟨0⟩⟩ "db.c.find(\x7ba: [')', 1]\x7d, a(b]) ;" =
        .ok ⟨"c", "find", [.object [("a", .arr [.str ")", .num (.int 1)])], .raw "a(b]"], []⟩ ∧
      Balanced (normalized "db.c.find(\x7ba: [')', 1]\x7d, a(b]) ;".toList) ∧
      Nested "\x7ba: [')', 1]\x7d".toList := by
  have hparse : Command.parse ⟨0, fun _ => ⟨0⟩⟩ "db.c.find(\x7ba: [')', 1]\x7d, a(b]) ;" =
      .ok ⟨"c", "find", [.object [("a", .arr [.str ")", .num (.int 1)])], .raw "a(b]"], []⟩ := rfl
  obtain ⟨hbalanced, -, hargs⟩ := brackets_of_parse hparse (by decide +kernel)
  obtain ⟨a, ha, hnested⟩ := hargs "\x7ba: [')', 1]\x7d".toList (by decide +kernel)
  refine ⟨hparse, hbalanced, hnested ?_ ?_⟩
  · rintro s rfl
    cases ha
  · rintro ⟨p, con, arg, call, r, hsplit, -, hcall, -⟩
    have hopen : '(' ∈ "\x7ba: [')', 1]\x7d".toList := by
      obtain ⟨-, -, -⟩ := hcall
      rw [hsplit]
      simp
    exact absurd hopen (by decide)

/-- Not every command that is read nests: a bare identifier is taken as it stands. -/
theorem not_every_command_nested :
    ¬ ∀ (ambient : Ambient) (text : String) (c : Command), Command.parse ambient text = .ok c →
      "db.".toList <+: normalized text.toList → Nested (normalized text.toList) := by
  intro hall
  have hparse : Command.parse ⟨0, fun _ => ⟨0⟩⟩ "db.c.find(a(b])" =
      .ok ⟨"c", "find", [.raw "a(b]"], []⟩ := rfl
  have hnested := hall _ _ _ hparse (by decide +kernel)
  exact absurd hnested (by decide +kernel)

end Polyshell.Mongo
