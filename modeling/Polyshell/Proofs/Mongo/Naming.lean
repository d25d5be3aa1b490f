/-
  The two ways to name a collection agree.

  A collection stands in front of the first dot, or it is the argument of a call of `getCollection`.
  The first form cuts the name off the text; the second one cuts a chain into calls, reads an
  argument and takes the first call off the list.

  1. **In front of any text** — both beginnings are left alone by the normal form, and what it makes
     of the text behind them is the same (`normalized_front`).

  2. **Behind the name** — in either form the command is read exactly if the rest is a chain of
     calls that can be read, and then it is the same command (`ofNormalized_dot_iff`,
     `ofNormalized_call_iff`).  The texts that faults quote differ, so only results are compared.
-/
import Polyshell.Proofs.Except
import Polyshell.Proofs.Mongo.Chains

namespace Polyshell.Mongo

open Polyshell.Text

/-! ## In front of any text -/

/-- What is left of the end of a command: no blanks, and one semicolon less. -/
def ending (rest : List Char) : List Char :=
  trimEnd ((dropLast? ';' (trimEnd rest)).getD (trimEnd rest))

/-- Blanks are cut off the text behind a solid one only. -/
theorem trimEnd_append {p : List Char} (h : Solid p) (rest : List Char) :
    trimEnd (p ++ rest) = p ++ trimEnd rest := by
  obtain ⟨l, c, rfl, hc⟩ := h.last
  rw [trimEnd, List.reverse_append, List.dropWhile_append]
  split
  · next hempty =>
    have hnothing : trimEnd rest = [] := by rw [trimEnd, List.isEmpty_iff.mp hempty]; rfl
    rw [hnothing, List.append_nil]
    exact trimEnd_append_solid l c hc
  · rw [List.reverse_append, List.reverse_reverse, trimEnd]

/-- A semicolon at the end belongs to the text behind one without it. -/
theorem dropLast?_append {p : List Char} (h : p.getLast? ≠ some ';') (rest : List Char) :
    (dropLast? ';' (p ++ rest)).getD (p ++ rest) = p ++ (dropLast? ';' rest).getD rest := by
  by_cases hrest : rest = []
  · rw [hrest, List.append_nil, dropLast?, if_neg h]
    exact (List.append_nil p).symm
  · rw [dropLast?, dropLast?, List.getLast?_append_of_ne_nil _ hrest,
      List.dropLast_append_of_ne_nil hrest]
    split <;> rfl

/-- A solid text that the normal form leaves alone is left alone in front of any other, which comes
    out alike behind each such text. -/
theorem normalized_front {p : List Char} (hsolid : Solid p) (hlast : p.getLast? ≠ some ';')
    (hp : CollapsesTo 0 p p) (rest : List Char) :
    normalized (p ++ rest) = p ++ collapse Scan.start false (ending rest) := by
  have hstart : trim (p ++ rest) = p ++ trimEnd rest := by
    obtain ⟨c, r, rfl, hc⟩ := hsolid.head
    rw [trim, List.cons_append, trimStart, List.dropWhile_cons, hc, if_neg Bool.false_ne_true,
      ← List.cons_append, trimEnd_append hsolid]
  rw [normalized, stripped, hstart]
  simp only [dropLast?_append hlast, trimEnd_append hsolid]
  exact hp (ending rest)

/-! ## The two beginnings -/

/-- A collection in front of a dot. -/
def dotFront (name : List Char) : List Char := "db.".toList ++ (name ++ ['.'])

/-- The call that names a collection. -/
def namingCall (name : List Char) : WrittenCall :=
  ⟨"getCollection".toList, [.str (String.ofList name)]⟩

/-- That call as it is written. -/
def namingText (name : List Char) : List Char :=
  "getCollection".toList ++ '(' :: ('"' :: (name ++ ['"']) ++ [')'])

/-- The call in front of a dot. -/
def callFront (name : List Char) : List Char := "db.".toList ++ (namingText name ++ ['.'])

/-- What has neither quotes nor backslashes stands between the quotes as it is. -/
theorem Term.text_str {s : List Char} (h : ∀ c ∈ s, c ≠ '"' ∧ c ≠ '\\') :
    Term.text (.str (String.ofList s)) = '"' :: (s ++ ['"']) := by
  have hself : ∀ c ∈ s, Term.escapeChar c = [c] := fun c hc => by
    rw [Term.escapeChar, if_neg (not_or.mpr (h c hc))]
  have hwhole : s.flatMap Term.escapeChar = s := by
    rw [List.flatMap_congr hself, List.flatMap_singleton']
  show '"' :: ((String.ofList s).toList.flatMap Term.escapeChar ++ ['"']) = _
  rw [String.toList_ofList, hwhole]

section Beginnings

variable {name : List Char} (hname : IsCollection name)
include hname

/-- No character of a name is escaped between quotes. -/
theorem text_str_name : Term.text (.str (String.ofList name)) = '"' :: (name ++ ['"']) := by
  refine Term.text_str fun c hc => ⟨?_, ?_⟩
  · rintro rfl
    exact absurd (hname.2 _ hc) (by decide)
  · rintro rfl
    exact absurd (hname.2 _ hc) (by decide)

theorem callText_naming : CallText (namingCall name) (namingText name) := by
  have hmethod : IsName "getCollection".toList := ⟨by decide, List.all_eq_true.mp (by decide)⟩
  have hvalid : Term.Valid (.str (String.ofList name)) := trivial
  have hcall := CallText.args hmethod (Separated.last hvalid)
  rw [text_str_name hname] at hcall
  exact hcall

theorem collapsesTo_dot : CollapsesTo 0 (dotFront name) (dotFront name) :=
  .append (.of_keeps (keeps_word (Int.le_refl 0) (by decide))) (.append
    (.of_keeps (keeps_plain (Int.le_refl 0) fun c hc =>
      (isPlain_of_isCollectionChar (hname.2 c hc)).1))
    (.of_keeps (keeps_word (Int.le_refl 0) (by decide))))

theorem collapsesTo_call : CollapsesTo 0 (callFront name) (callFront name) := by
  have hquoted := Term.keeps (t := .str (String.ofList name)) trivial 1
  rw [text_str_name hname] at hquoted
  exact .append (.of_keeps (keeps_word (Int.le_refl 0) (by decide))) (.append
    (.append (.of_keeps (keeps_word (Int.le_refl 0) (by decide))) (.parens (.of_keeps hquoted)))
    (.of_keeps (keeps_word (Int.le_refl 0) (by decide))))

end Beginnings

/-- Either beginning ends in a dot. -/
theorem solid_beginning (s : List Char) :
    Solid ("db.".toList ++ (s ++ ['.'])) ∧ ("db.".toList ++ (s ++ ['.'])).getLast? ≠ some ';' := by
  rw [← List.append_assoc, List.getLast?_concat, List.append_assoc]
  exact ⟨Solid.of_ends (by decide) (by decide) ('b' :: '.' :: s), by decide⟩

/-! ## Behind the name -/

/-- `ReadsChain ambient t calls` — the text `t` is a chain, and its calls are read as `calls`. -/
def ReadsChain (ambient : Ambient) (t : List Char) (calls : List Call) : Prop :=
  ∃ texts, IsChain texts t ∧ Command.readCalls ambient texts = .ok calls

/-- `IsOn name ambient t c` — behind the name of a collection stands `t`, a chain, and `c` is the
    command of its calls. -/
def IsOn (name : List Char) (ambient : Ambient) (t : List Char) (c : Command) : Prop :=
  ∃ primary others, ReadsChain ambient t (primary :: others) ∧
    c = ⟨String.ofList name, primary.method, primary.args, others⟩

section Behind

variable {name : List Char} (hname : IsCollection name) (ambient : Ambient) (t : List Char)
  (c : Command)
include hname

/-- Behind a collection and its dot. -/
theorem ofNormalized_dot_iff :
    Command.ofNormalized ambient (dotFront name ++ t) = .ok c ↔ IsOn name ambient t c := by
  have hempty : name.isEmpty = false := List.isEmpty_eq_false_iff.mpr hname.1
  have hused : (!name.isEmpty && name.all Command.isCollectionChar) = true := by
    rw [hempty, Bool.not_false, Bool.true_and, List.all_eq_true]
    exact hname.2
  have htext : dotFront name ++ t = "db.".toList ++ (name ++ '.' :: t) := by
    rw [dotFront, List.append_assoc, List.append_assoc, List.singleton_append]
  rw [htext]
  -- no keyword begins with a `d`, so only the third form is left
  show Command.ofExpression ambient (name ++ '.' :: t) _ = .ok c ↔ _
  rw [Command.ofExpression, collectionParts?_collection hname]
  simp only [Option.getD_some, hused, Bool.not_true, Bool.and_false, if_neg Bool.false_ne_true]
  constructor
  · intro h
    obtain ⟨texts, htexts, h⟩ := exists_of_bind h
    obtain ⟨calls, hcalls, h⟩ := exists_of_bind h
    cases calls with
    | nil => cases h
    | cons primary others =>
      simp only [Command.ofCalls, hempty, Bool.false_and, Bool.false_eq_true, if_false] at h
      exact ⟨primary, others, ⟨texts, chainCalls_eq_ok_iff.mp htexts, hcalls⟩,
        (Except.ok.inj h).symm⟩
  · rintro ⟨primary, others, ⟨texts, htexts, hcalls⟩, rfl⟩
    rw [chainCalls_eq_ok_iff.mpr htexts]
    show (do
      let calls ← Command.readCalls ambient texts
      Command.ofCalls _ t name calls) = _
    rw [hcalls]
    show Command.ofCalls _ t name (primary :: others) = _
    simp only [Command.ofCalls, hempty, Bool.false_and, Bool.false_eq_true, if_false]

omit hname in
/-- The call is no collection of its own: it has a parenthesis in front of its dot. -/
theorem collectionParts?_call (hdot : '.' ∉ name) :
    Command.collectionParts? (namingText name ++ '.' :: t) =
      some (none, namingText name ++ '.' :: t) := by
  have hfront : '.' ∉ namingText name := by
    intro h
    unfold namingText at h
    rcases List.mem_append.mp h with h | h
    · exact absurd h (by decide)
    · simp [hdot] at h
  have hparen : (namingText name).contains '(' = true := by
    unfold namingText
    exact List.contains_iff_mem.mpr (List.mem_append_right _ List.mem_cons_self)
  rw [Command.collectionParts?, cut_append hfront]
  simp only [hparen, if_true]

/-- A chain that begins with the call that names a collection is that call and the rest. -/
theorem chainCalls_naming_iff {texts : List (List Char)} :
    chainCalls (namingText name ++ '.' :: t) = .ok texts ↔
      ∃ others, IsChain others t ∧ texts = namingText name :: others := by
  rw [chainCalls, show Scan.start = Scan.at 0 from rfl,
    (callText_naming hname).insideCall _ _ Blanks.nil,
    show betweenCalls _ ('.' :: t) = insideCall _ Scan.start false [] t from
      betweenCalls_dot _ Blanks.nil t]
  constructor
  · intro h
    split at h
    · next others hothers =>
      exact ⟨others, isChain_of_insideCall hothers, (Except.ok.inj h).symm⟩
    · cases h
  · rintro ⟨others, hothers, rfl⟩
    rw [hothers.insideCall]

/-- The first call names the collection, and the second one is the operation. -/
theorem ofCalls_naming_iff (command chainText : List Char) (calls : List Call) :
    Command.ofCalls command chainText [] ((namingCall name).call :: calls) = .ok c ↔
      ∃ primary others, calls = primary :: others ∧
        c = ⟨String.ofList name, primary.method, primary.args, others⟩ := by
  have hargument : Command.collectionArgument (namingCall name).call =
      .ok (String.ofList name) := by
    show (if (String.ofList name).isEmpty then _ else _) = _
    rw [if_neg (by simpa using hname.1)]
  have hnaming : (List.isEmpty ([] : List Char) &&
      decide ((namingCall name).call.method = "getCollection")) = true := rfl
  rw [Command.ofCalls.eq_def]
  dsimp only
  rw [if_pos hnaming, hargument]
  cases calls with
  | nil => simp
  | cons primary others =>
    constructor
    · exact fun h => ⟨primary, others, rfl, (Except.ok.inj h).symm⟩
    · rintro ⟨_, _, heq, rfl⟩
      cases heq
      rfl

/-- Behind the call that names a collection, and its dot. -/
theorem ofNormalized_call_iff :
    Command.ofNormalized ambient (callFront name ++ t) = .ok c ↔ IsOn name ambient t c := by
  have hdot : '.' ∉ name := fun hmem => (isPlain_of_isCollectionChar (hname.2 _ hmem)).2 rfl
  have hread : ∀ texts, Command.readCalls ambient (namingText name :: texts) =
      (Command.readCalls ambient texts).map ((namingCall name).call :: ·) := fun texts => by
    rw [Command.readCalls, (callText_naming hname).readCall]
  have htext : callFront name ++ t = "db.".toList ++ (namingText name ++ '.' :: t) := by
    rw [callFront, List.append_assoc, List.append_assoc, List.singleton_append]
  rw [htext]
  show Command.ofExpression ambient (namingText name ++ '.' :: t) _ = .ok c ↔ _
  rw [Command.ofExpression, collectionParts?_call t hdot]
  simp only [Option.getD_none, Option.isSome_none, Bool.false_and, if_neg Bool.false_ne_true]
  constructor
  · intro h
    obtain ⟨texts, htexts, h⟩ := exists_of_bind h
    obtain ⟨calls, hcalls, h⟩ := exists_of_bind h
    obtain ⟨others, hothers, rfl⟩ := (chainCalls_naming_iff hname t).mp htexts
    rw [hread] at hcalls
    cases hrest : Command.readCalls ambient others with
    | error e => rw [hrest] at hcalls; cases hcalls
    | ok rest =>
      rw [hrest] at hcalls
      cases hcalls
      obtain ⟨primary, others', rfl, rfl⟩ := (ofCalls_naming_iff hname c _ _ rest).mp h
      exact ⟨primary, others', ⟨others, hothers, hrest⟩, rfl⟩
  · rintro ⟨primary, others, ⟨texts, htexts, hcalls⟩, rfl⟩
    rw [(chainCalls_naming_iff hname t).mpr ⟨texts, htexts, rfl⟩]
    show (do
      let calls ← Command.readCalls ambient (namingText name :: texts)
      Command.ofCalls _ (namingText name ++ '.' :: t) [] calls) = _
    rw [hread, hcalls]
    exact (ofCalls_naming_iff hname _ _ (namingText name ++ '.' :: t) _).mpr
      ⟨primary, others, rfl, rfl⟩

end Behind

/-- **The two ways to name a collection agree**: whatever follows, the one command is read exactly
    if the other one is, and as the same. -/
theorem parse_named_alike (ambient : Ambient) {name : String} (hname : IsCollection name.toList)
    (rest : String) (c : Command) :
    Command.parse ambient ("db.getCollection(\"" ++ name ++ "\")." ++ rest) = .ok c ↔
      Command.parse ambient ("db." ++ name ++ "." ++ rest) = .ok c := by
  have hcall : ("db.getCollection(\"" ++ name ++ "\")." ++ rest).toList =
      callFront name.toList ++ rest.toList := by
    have hopen : "db.getCollection(\"".toList =
        "db.".toList ++ ("getCollection".toList ++ ['(', '"']) := by
      decide +kernel
    have hclose : "\").".toList = ['"', ')', '.'] := rfl
    have hparts : callFront name.toList =
        "db.getCollection(\"".toList ++ (name.toList ++ "\").".toList) := by
      unfold callFront namingText
      rewrite [hopen, hclose]
      simp only [List.append_assoc, List.cons_append, List.nil_append]
    rewrite [hparts, String.toList_append, String.toList_append, String.toList_append]
    simp only [List.append_assoc]
  have hdot : ("db." ++ name ++ "." ++ rest).toList = dotFront name.toList ++ rest.toList := by
    have hend : ".".toList = ['.'] := rfl
    rw [String.toList_append, String.toList_append, String.toList_append, hend, dotFront]
    simp only [List.append_assoc]
  obtain ⟨hcallSolid, hcallLast⟩ := solid_beginning (namingText name.toList)
  obtain ⟨hdotSolid, hdotLast⟩ := solid_beginning name.toList
  have hcallFront := normalized_front hcallSolid hcallLast (collapsesTo_call hname) rest.toList
  have hdotFront := normalized_front hdotSolid hdotLast (collapsesTo_dot hname) rest.toList
  rw [Command.parse, Command.parse, hcall, hdot, callFront, dotFront, hcallFront, hdotFront,
    ← callFront, ← dotFront, ofNormalized_call_iff hname, ofNormalized_dot_iff hname]

/-- Behind the name a call of `getCollection` is an operation like any other. -/
theorem parse_named_alike_again :
    IsCollection "a-b".toList ∧
      Command.parse ⟨0, fun _ => ⟨0⟩⟩ "db.getCollection(\"a-b\"). getCollection(1).x();" =
        .ok ⟨"a-b", "getCollection", [.number (.int 1)], [⟨"x", []⟩]⟩ := by
  have hname : IsCollection "a-b".toList := ⟨by decide, List.all_eq_true.mp (by decide)⟩
  exact ⟨hname, (parse_named_alike _ hname " getCollection(1).x();" _).mpr rfl⟩

end Polyshell.Mongo
