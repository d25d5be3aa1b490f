/-
  Which piece of a command an error quotes.

  1. **Pieces** — `Quotes text e`: what the error is about is a piece of the text that is not empty.  An
     error about a piece of a piece is about a piece of the whole (`Quotes.trans`), so every stage of the
     reader is a matter of its own text: arguments (`quotes_of_ofTrimmed`), what stands between
     parentheses (`quotes_of_argumentTexts`), calls (`quotes_of_readCall`), chains
     (`quotes_of_chainCalls`).

  2. **Chains** — what was read of a call and what follows it are the end of the chain, which is what
     carries the induction (`quotes_of_insideCall`).  This is the one stage that can be about nothing:
     a chain without any text has no piece that could be quoted.

  3. **Commands** — `parse_error_quotes`: that happens behind `db.`, a collection and a dot, with
     nothing after it (`IsUnfinished`), and nowhere else.
-/
import Polyshell.Proofs.Mongo.Delimiters
import Polyshell.Proofs.Mongo.Normal

namespace Polyshell

/-- The piece of the command that an error is about. -/
def ParseError.quoted? : ParseError → Option String
  | .unsupportedCommand t => some t
  | .unbalancedDelimiters t => some t
  | .invalidMethodCall t => some t
  | .invalidLiteral t _ => some t
  | .invalidArgument _ _ => none
  | .emptyCommand => none

namespace Mongo

open Polyshell.Text

/-! ## Pieces -/

/-- The error is about a piece of the text, if it is about any, and there is a command. -/
structure Quotes (text : List Char) (e : ParseError) : Prop where
  piece : ∀ t, e.quoted? = some t → t ≠ "" ∧ t.toList <:+: text
  command : e ≠ .emptyCommand

namespace Quotes

variable {a b : List Char} {e : ParseError}

theorem of_piece {p : List Char} (h : e.quoted? = some (String.ofList p)) (hne : p ≠ [])
    (hp : p <:+: a) : Quotes a e := by
  constructor
  · intro t ht
    obtain rfl := Option.some.inj (ht.symm.trans h)
    refine ⟨fun hempty => hne ?_, ?_⟩
    · exact String.ofList_injective hempty
    · rw [String.toList_ofList]
      exact hp
  · rintro rfl
    cases h

theorem whole (h : e.quoted? = some (String.ofList a)) (hne : a ≠ []) : Quotes a e :=
  of_piece h hne List.infix_rfl

theorem of_invalidArgument (operation problem : String) :
    Quotes a (.invalidArgument operation problem) := by
  constructor
  · intro t ht
    cases ht
  · intro h
    cases h

theorem trans (h : Quotes a e) (hab : a <:+: b) : Quotes b e :=
  ⟨fun t ht => ⟨(h.piece t ht).1, (h.piece t ht).2.trans hab⟩, h.command⟩

end Quotes

theorem infix_trim (t : List Char) : trim t <:+: t := by
  obtain ⟨w, w', -, -, ht⟩ := exists_trim t
  exact ⟨w, w', by rw [List.append_assoc]; exact ht.symm⟩

/-! ## Arguments -/

/-- A literal is quoted as it was written, not as it was rewritten. -/
theorem quotes_of_ofLiteral {ambient : Ambient} {t : List Char} {e : ParseError} (hne : t ≠ [])
    (h : Argument.ofLiteral ambient t = .error e) : Quotes t e := by
  rw [Argument.ofLiteral] at h
  split at h
  · next e' hstrict =>
    cases h
    rw [strictText] at hstrict
    split at hstrict
    · cases hstrict
    · cases hstrict
      exact .whole rfl hne
  · split at h
    · cases h
    · cases h
      exact .whole rfl hne

theorem quotes_of_ofTrimmed {ambient : Ambient} {t : List Char} {e : ParseError} (hne : t ≠ [])
    (h : Argument.ofTrimmed ambient t = .error e) : Quotes t e := by
  by_cases hliteral : Argument.ofLiteral ambient t = .error e
  · exact quotes_of_ofLiteral hne hliteral
  · -- nothing else is ever refused
    exfalso
    unfold Argument.ofTrimmed at h
    repeat' split at h
    all_goals first | cases h | exact hliteral h

/-- The first argument that cannot be read is the one that is reported. -/
theorem exists_of_readArguments_error {ambient : Ambient} {texts : List (List Char)} {e : ParseError}
    (h : Command.readArguments ambient texts = .error e) :
    ∃ t ∈ texts, Argument.ofText ambient t = .error e := by
  induction texts with
  | nil => cases h
  | cons t texts ih =>
    rw [Command.readArguments] at h
    split at h
    · next ht =>
      cases h
      exact ⟨t, List.mem_cons_self, ht⟩
    · obtain ⟨t', hmem, ht'⟩ := ih (eq_error_of_map h)
      exact ⟨t', List.mem_cons_of_mem t hmem, ht'⟩

theorem quotes_of_argumentTexts {inner : List Char} {e : ParseError}
    (h : argumentTexts inner = .error e) : Quotes inner e := by
  have hne : inner ≠ [] := by
    rintro rfl
    cases h
  rw [argumentTexts] at h
  split at h
  · cases h
  · split at h
    · cases h
      exact .whole rfl hne
    · dsimp only at h
      split at h
      · cases h
        exact .whole rfl hne
      · cases h

theorem infix_intercalate {q : List Char} {qs : List (List Char)} (h : q ∈ qs) :
    q <:+: [','].intercalate qs := by
  induction qs with
  | nil => exact absurd h List.not_mem_nil
  | cons p qs ih =>
    cases qs with
    | nil =>
      rw [List.intercalate_singleton, List.mem_singleton.mp h]
    | cons p' qs =>
      rw [intercalate_cons (List.cons_ne_nil p' qs)]
      rcases List.mem_cons.mp h with rfl | hmem
      · exact (List.prefix_append q _).isInfix
      · exact ((ih hmem).trans (List.suffix_cons ',' _).isInfix).trans (List.suffix_append p _).isInfix

theorem exists_of_padded {args qs : List (List Char)} (h : List.Forall₂ Padded args qs)
    {a : List Char} (ha : a ∈ args) : ∃ q ∈ qs, a <:+: q := by
  induction h with
  | nil => exact absurd ha List.not_mem_nil
  | cons hq _ ih =>
    rcases List.mem_cons.mp ha with rfl | hmem
    · obtain ⟨w, w', -, -, rfl⟩ := hq
      exact ⟨_, List.mem_cons_self, w, w', by rw [List.append_assoc]⟩
    · obtain ⟨q, hmem, hinfix⟩ := ih hmem
      exact ⟨q, List.mem_cons_of_mem _ hmem, hinfix⟩

/-- Arguments are pieces of the text that lists them. -/
theorem IsArgumentList.infix_of_mem {args : List (List Char)} {inner a : List Char}
    (h : IsArgumentList args inner) (ha : a ∈ args) : a <:+: inner := by
  obtain ⟨-, ⟨rfl, -⟩ | ⟨-, qs, hpadded, htext⟩⟩ := h
  · exact absurd ha List.not_mem_nil
  · obtain ⟨q, hq, hinfix⟩ := exists_of_padded hpadded ha
    rcases htext with rfl | ⟨w, -, rfl⟩
    · exact hinfix.trans (infix_intercalate hq)
    · exact hinfix.trans (infix_intercalate (List.mem_append_left [w] hq))

/-! ## Calls -/

theorem quotes_of_callParts {call : List Char} {e : ParseError} (hsolid : Solid call)
    (h : callParts call = .error e) : Quotes call e := by
  have hquoted : e = notACall call := by
    simp only [callParts, hsolid.trim] at h
    split at h
    · cases h
      rfl
    · split at h
      · cases h
        rfl
      · split at h
        · cases h
        · cases h
          rfl
  rw [hquoted]
  exact .whole rfl hsolid.ne_nil

/-- An error about a call is about its form, about all that stands between its parentheses, or about
    one argument. -/
theorem quotes_of_readCall {ambient : Ambient} {call : List Char} {e : ParseError}
    (hcall : IsCall call) (h : Command.readCall ambient call = .error e) : Quotes call e := by
  rcases eq_error_of_bind h with hparts | ⟨⟨name, inner⟩, hparts, h⟩
  · exact quotes_of_callParts hcall.solid hparts
  · have hinner : inner <:+: call := by
      obtain ⟨front, rfl, -⟩ := exists_of_callParts hcall.solid hparts
      exact ⟨front ++ ['('], [')'], by simp⟩
    rcases eq_error_of_bind h with hargs | ⟨args, hargs, h⟩
    · exact (quotes_of_argumentTexts hargs).trans hinner
    · rcases eq_error_of_bind h with hread | ⟨read, -, h⟩
      · have hlist := isArgumentList_of_argumentTexts hargs
        obtain ⟨t, ht, hread⟩ := exists_of_readArguments_error hread
        have hsolid := (hlist.1 t ht).solid
        rw [Argument.ofText, hsolid.trim] at hread
        exact (quotes_of_ofTrimmed hsolid.ne_nil hread).trans ((hlist.infix_of_mem ht).trans hinner)
      · cases h

/-- The first call that cannot be read is the one that is reported. -/
theorem exists_of_readCalls_error {ambient : Ambient} {texts : List (List Char)} {e : ParseError}
    (h : Command.readCalls ambient texts = .error e) :
    ∃ t ∈ texts, Command.readCall ambient t = .error e := by
  induction texts with
  | nil => cases h
  | cons t texts ih =>
    rw [Command.readCalls] at h
    split at h
    · next ht =>
      cases h
      exact ⟨t, List.mem_cons_self, ht⟩
    · obtain ⟨t', hmem, ht'⟩ := ih (eq_error_of_map h)
      exact ⟨t', List.mem_cons_of_mem t hmem, ht'⟩

/-- A call is read for each text. -/
theorem eq_nil_of_readCalls {ambient : Ambient} {texts : List (List Char)}
    (h : Command.readCalls ambient texts = .ok []) : texts = [] := by
  cases texts with
  | nil => rfl
  | cons t texts =>
    rw [Command.readCalls] at h
    split at h
    · cases h
    · cases hrest : Command.readCalls ambient texts with
      | error e =>
        rw [hrest] at h
        cases h
      | ok calls =>
        rw [hrest] at h
        cases h

/-! ## Chains -/

theorem Joined.ne_nil {ts : List (List Char)} {t : List Char} (h : Joined ts t) : ts ≠ [] := by
  cases h with
  | last hw hw' => exact List.cons_ne_nil _ _
  | more hw hw' _ => exact List.cons_ne_nil _ _

theorem Joined.infix_of_mem {ts : List (List Char)} {t a : List Char} (h : Joined ts t)
    (ha : a ∈ ts) : a <:+: t := by
  induction h with
  | @last t w w' hw hw' =>
    rw [List.mem_singleton.mp ha]
    exact ⟨w, w', by rw [List.append_assoc]⟩
  | @more t w w' rest ts hw hw' _ ih =>
    rcases List.mem_cons.mp ha with rfl | hmem
    · exact ⟨w, w' ++ '.' :: rest, by rw [List.append_assoc]⟩
    · exact (ih hmem).trans ⟨w ++ (t ++ (w' ++ ['.'])), [], by simp⟩

/-- What is reported while a chain is cut is the whole chain, what is left of a call that was not
    closed, or what follows the last call. -/
theorem quotes_of_insideCall {whole : List Char} {e : ParseError} (hne : whole ≠ [])
    (text : List Char) :
    (∀ s opened seen, seen.reverse ++ text <:+ whole →
      insideCall whole s opened seen text = .error e → Quotes whole e) ∧
    (text <:+ whole → betweenCalls whole text = .error e → Quotes whole e) := by
  have hunbalanced : Quotes whole (unbalanced whole) := .whole rfl hne
  induction text with
  | nil =>
    refine ⟨fun s opened seen hseen h => ?_, fun _ h => by cases h⟩
    rw [insideCall] at h
    rw [List.append_nil] at hseen
    split at h
    · cases h
      split
      · exact .whole rfl hne
      · next hrest =>
        have hpiece := (infix_trim seen.reverse).trans hseen.isInfix
        exact .of_piece rfl (fun hnil => hrest (List.isEmpty_iff.mpr hnil)) hpiece
    · cases h
      exact hunbalanced
  | cons c r ih =>
    obtain ⟨hinside, hbetween⟩ := ih
    constructor
    · intro s opened seen hseen h
      have hnext : (c :: seen).reverse ++ r <:+ whole := by
        rwa [List.reverse_cons, List.append_assoc, List.singleton_append]
      have hrest : r <:+ whole := (List.suffix_append _ r).trans hnext
      rw [insideCall] at h
      split at h
      · split at h
        · cases h
          exact hunbalanced
        · split at h
          · split at h
            · cases h
            · next hr =>
              cases h
              exact hbetween hrest hr
          · exact hinside _ _ _ hnext h
      · exact hinside _ _ _ hnext h
    · intro hsuffix h
      have hrest : r <:+ whole := (List.suffix_cons c r).trans hsuffix
      rw [betweenCalls] at h
      split at h
      · exact hbetween hrest h
      · split at h
        · exact hinside _ _ [] hrest h
        · cases h
          exact .of_piece rfl (List.cons_ne_nil c r) hsuffix.isInfix

theorem quotes_of_chainCalls {chain : List Char} {e : ParseError} (hne : chain ≠ [])
    (h : chainCalls chain = .error e) : Quotes chain e :=
  (quotes_of_insideCall hne chain).1 _ _ [] List.suffix_rfl h

/-! ## Commands -/

/-- A command that ends where the name of an operation should stand. -/
def IsUnfinished (command : List Char) : Prop :=
  ∃ w name w', Blanks w ∧ Blanks w' ∧ IsCollection name ∧
    command = "db.".toList ++ (w ++ (name ++ w') ++ ['.'])

theorem Blanks.not_mem {w : List Char} (hw : Blanks w) {c : Char} (hc : isBlank c = false) :
    c ∉ w := by
  intro hmem
  rw [hw c hmem] at hc
  cases hc

theorem IsCollection.not_mem {name : List Char} (hn : IsCollection name) {c : Char}
    (hc : Command.isCollectionChar c = false) : c ∉ name := by
  intro hmem
  rw [hn.2 c hmem] at hc
  cases hc

theorem quotes_of_collectionArgument {command : List Char} {c : Call} {e : ParseError}
    (h : Command.collectionArgument c = .error e) : Quotes command e := by
  unfold Command.collectionArgument at h
  split at h
  · split at h
    · cases h
      exact .of_invalidArgument _ _
    · cases h
  · cases h
    exact .of_invalidArgument _ _

theorem quotes_of_ofCalls {command chain collection : List Char} {calls : List Call} {e : ParseError}
    (hne : command ≠ []) (hcalls : calls ≠ [])
    (h : Command.ofCalls command chain collection calls = .error e) : Quotes command e := by
  cases calls with
  | nil => exact absurd rfl hcalls
  | cons primary others =>
    simp only [Command.ofCalls] at h
    split at h
    · split at h
      · next hargument =>
        cases h
        exact quotes_of_collectionArgument hargument
      · cases h
        exact .whole rfl hne
      · cases h
    · cases h

/-- A chain that is not empty is read call by call. -/
theorem quotes_of_chain {ambient : Ambient} {command chain collection : List Char} {e : ParseError}
    (hne : chain ≠ []) (hchain : chain <:+: command)
    (h : (do
      let texts ← chainCalls chain
      let calls ← Command.readCalls ambient texts
      Command.ofCalls command chain collection calls) = .error e) : Quotes command e := by
  rcases eq_error_of_bind h with hcut | ⟨texts, hcut, h⟩
  · exact (quotes_of_chainCalls hne hcut).trans hchain
  · obtain ⟨hcalls, hjoined⟩ := chainCalls_eq_ok_iff.mp hcut
    rcases eq_error_of_bind h with hread | ⟨calls, hread, h⟩
    · obtain ⟨t, ht, hread⟩ := exists_of_readCalls_error hread
      exact (quotes_of_readCall (hcalls t ht) hread).trans ((hjoined.infix_of_mem ht).trans hchain)
    · refine quotes_of_ofCalls ?_ ?_ h
      · rintro rfl
        exact hne (List.eq_nil_of_infix_nil hchain)
      · rintro rfl
        exact hjoined.ne_nil (eq_nil_of_readCalls hread)

/-- The chain is all there is, and has a parenthesis, or stands behind the first dot. -/
theorem collectionParts?_cases {rest chain : List Char} {named : Option (List Char)}
    (h : Command.collectionParts? rest = some (named, chain)) :
    named = none ∧ chain = rest ∧ '(' ∈ rest ∨
      ∃ front, named = some (trim front) ∧ rest = front ++ '.' :: chain := by
  unfold Command.collectionParts? at h
  split at h
  · next front back hcut =>
    obtain ⟨rfl, -⟩ := cut_spec hcut
    split at h
    · next hparen =>
      cases h
      exact Or.inl ⟨rfl, rfl, List.mem_append_left _ (List.contains_iff_mem.mp hparen)⟩
    · cases h
      exact Or.inr ⟨front, rfl, rfl⟩
  · split at h
    · next hparen =>
      cases h
      exact Or.inl ⟨rfl, rfl, List.contains_iff_mem.mp hparen⟩
    · cases h

/-- Behind `db.` an error is about a piece of the command, or about nothing where nothing follows the
    collection and its dot. -/
theorem quotes_of_ofExpression {ambient : Ambient} {rest : List Char} {e : ParseError}
    (h : Command.ofExpression ambient rest ("db.".toList ++ rest) = .error e) :
    Quotes ("db.".toList ++ rest) e ∨ IsUnfinished ("db.".toList ++ rest) := by
  have hne : "db.".toList ++ rest ≠ [] := List.cons_ne_nil _ _
  unfold Command.ofExpression at h
  split at h
  · cases h
    exact Or.inl (.whole rfl hne)
  · next named chain hparts =>
    dsimp only at h
    split at h
    · cases h
      exact Or.inl (.whole rfl hne)
    · next hnamed =>
      rcases collectionParts?_cases hparts with ⟨-, rfl, hparen⟩ | ⟨front, rfl, rfl⟩
      · exact Or.inl (quotes_of_chain (List.ne_nil_of_mem hparen) (List.suffix_append _ _).isInfix h)
      · by_cases hchain : chain = []
        · right
          obtain ⟨w, w', hw, hw', hfront⟩ := exists_trim front
          simp only [Option.isSome_some, Option.getD_some, Bool.true_and, Bool.not_eq_true',
            Bool.not_eq_false, Bool.and_eq_true, List.isEmpty_eq_false_iff, List.all_eq_true] at hnamed
          refine ⟨w, trim front, w', hw, hw', hnamed, ?_⟩
          rw [← hfront, hchain]
        · left
          refine quotes_of_chain hchain ?_ h
          rw [← List.singleton_append (x := '.'), ← List.append_assoc, ← List.append_assoc]
          exact (List.suffix_append _ chain).isInfix

/-- Behind a collection and its dot something must follow. -/
theorem ofNormalized_unfinished (ambient : Ambient) {command : List Char} (h : IsUnfinished command) :
    Command.ofNormalized ambient command = .error (.invalidMethodCall "") := by
  obtain ⟨w, name, w', hw, hw', hname, rfl⟩ := h
  have hdot : '.' ∉ w ++ (name ++ w') := by
    rw [List.mem_append, List.mem_append, not_or, not_or]
    exact ⟨hw.not_mem (by decide), hname.not_mem (by decide), hw'.not_mem (by decide)⟩
  have hparen : ¬ (w ++ (name ++ w')).contains '(' = true := by
    rw [List.contains_iff_mem, List.mem_append, List.mem_append, not_or, not_or]
    exact ⟨hw.not_mem (by decide), hname.not_mem (by decide), hw'.not_mem (by decide)⟩
  have hsolid : Solid name := Solid.of_plain hname.1 fun c hc =>
    (isPlain_of_isCollectionChar (hname.2 c hc)).1
  have hparts : Command.collectionParts? (w ++ (name ++ w') ++ ['.']) = some (some name, []) := by
    rw [Command.collectionParts?, cut_append hdot]
    show (if (w ++ (name ++ w')).contains '(' then _ else _) = _
    rw [if_neg hparen, hsolid.trim_padded hw hw']
  have hvalid : (!name.isEmpty && name.all Command.isCollectionChar) = true := by
    rw [List.isEmpty_eq_false_iff.mpr hname.1, Bool.not_false, Bool.true_and, List.all_eq_true]
    exact hname.2
  show Command.ofExpression ambient (w ++ (name ++ w') ++ ['.']) _ = _
  rw [Command.ofExpression, hparts]
  simp only [Option.getD_some, hvalid, Bool.not_true, Bool.and_false, if_neg Bool.false_ne_true]
  rfl

/-- In a command in normal form, an error is about a piece that is not empty, or about nothing where
    the command is unfinished. -/
theorem quotes_of_ofNormalized {ambient : Ambient} {command : List Char} {e : ParseError}
    (hne : command ≠ []) (h : Command.ofNormalized ambient command = .error e) :
    Quotes command e ∨ IsUnfinished command := by
  rw [Command.ofNormalized, if_neg (by simpa using hne)] at h
  split at h
  · left
    unfold Command.ofUse at h
    split_ifs at h
    · cases h
      exact .of_invalidArgument _ _
    · cases h
      exact .of_invalidArgument _ _
  · split at h
    · left
      unfold Command.ofShow at h
      split_ifs at h
      cases h
      exact .whole rfl hne
    · split at h
      · next rest hdrop =>
        obtain rfl := eq_append_of_dropLeading? hdrop
        exact quotes_of_ofExpression h
      · cases h
        exact Or.inl (.whole rfl hne)

/-- **Errors quote the command verbatim.**  What an error is about is a piece of the command in normal
    form; it is empty exactly if the command is `db.`, a collection, and a dot with nothing behind it,
    which is always refused as a call without any text.  That there is no command is reported exactly
    if nothing is left of it. -/
theorem parse_error_quotes (ambient : Ambient) (text : String) :
    (∀ e t, Command.parse ambient text = .error e → e.quoted? = some t →
      t.toList <:+: normalized text.toList ∧ (t = "" ↔ IsUnfinished (normalized text.toList))) ∧
    (IsUnfinished (normalized text.toList) →
      Command.parse ambient text = .error (.invalidMethodCall "")) ∧
    (Command.parse ambient text = .error .emptyCommand ↔ normalized text.toList = []) := by
  unfold Command.parse
  generalize normalized text.toList = command
  have hempty : command = [] → Command.ofNormalized ambient command = .error .emptyCommand := by
    rintro rfl
    rfl
  refine ⟨fun e t h ht => ?_, ofNormalized_unfinished ambient, fun h => ?_, hempty⟩
  · by_cases hunfinished : IsUnfinished command
    · rw [ofNormalized_unfinished ambient hunfinished] at h
      cases h
      cases ht
      exact ⟨List.nil_infix, fun _ => hunfinished, fun _ => rfl⟩
    · have hne : command ≠ [] := by
        intro hnil
        rw [hempty hnil] at h
        cases h
        cases ht
      have hquotes := (quotes_of_ofNormalized hne h).resolve_right hunfinished
      obtain ⟨hsome, hpiece⟩ := hquotes.piece t ht
      exact ⟨hpiece, fun hnil => absurd hnil hsome, fun h => absurd h hunfinished⟩
  · by_contra hne
    rcases quotes_of_ofNormalized hne h with hquotes | hunfinished
    · exact hquotes.command rfl
    · rw [ofNormalized_unfinished ambient hunfinished] at h
      cases h

/-- A literal that is rewritten before it is found not to be JSON, as it stands in the command. -/
theorem parse_error_quotes_literal :
    ∃ reason, Command.parse ⟨0, fun _ => default⟩ " db.c .find('x', \x7ba:  \x7d\t) ;" =
        .error (.invalidLiteral "\x7ba: \x7d" reason) ∧
      "\x7ba: \x7d".toList <:+: normalized " db.c .find('x', \x7ba:  \x7d\t) ;".toList := by
  have hparse : ∃ reason, Command.parse ⟨0, fun _ => default⟩ " db.c .find('x', \x7ba:  \x7d\t) ;" =
      .error (.invalidLiteral "\x7ba: \x7d" reason) := ⟨_, rfl⟩
  obtain ⟨reason, hparse⟩ := hparse
  obtain ⟨hquoted, -, -⟩ := parse_error_quotes ⟨0, fun _ => default⟩
    " db.c .find('x', \x7ba:  \x7d\t) ;"
  exact ⟨reason, hparse, (hquoted _ _ hparse rfl).1⟩

/-- An operation is missing, and the message shows nothing. -/
theorem operation_missing :
    Command.parse ⟨0, fun _ => default⟩ "db.users." = .error (.invalidMethodCall "") ∧
      (ParseError.invalidMethodCall "").message =
        "Syntax error: expected method call, found ''" :=
  ⟨rfl, rfl⟩

end Mongo
end Polyshell
