/-
  Which commands switch a session to another database.

  1. **The normal form** — what stands behind a keyword in a command in normal form has no blanks at
     its ends, so the keyword, one space and the rest are the whole command
     (`normalized_of_afterKeyword?`).

  2. **Reading** — the form `use <name>` is read with a check of the name.  A call `db.use(<name>)` is read
     like any other call, without one (`callsUse`).  There is no third way to switch
     (`target?_eq_some`).

  3. **Switching** — as long as nobody writes such a call, sessions switch by `use <name>` only, to
     databases with usable names, and nothing else is ever recorded for them (`only_use_switches`).
-/
import Polyshell.Proofs.Mongo.Conduct
import Polyshell.Proofs.Mongo.Rendering
import Polyshell.Proofs.Pool.Selections

namespace Polyshell.Mongo

open Polyshell.Text

/-! ## The normal form -/

/-- Outside string literals the normal form goes on with a character that is not blank, behind one
    space at most. -/
theorem collapse_outside (d : Int) (pending : Bool) (t : List Char) :
    collapse (Scan.at d) pending t = [] ∨ ∃ c r, isBlank c = false ∧
      (collapse (Scan.at d) pending t = c :: collapse ((Scan.at d).next c) false r ∧
          pending = false ∨
        collapse (Scan.at d) pending t = ' ' :: c :: collapse ((Scan.at d).next c) false r) := by
  induction t generalizing pending with
  | nil => exact Or.inl rfl
  | cons c r ih =>
    cases hc : isBlank c with
    | true =>
      have hdrop : collapse (Scan.at d) pending (c :: r) = collapse (Scan.at d) true r := by
        rw [collapse, structural_blank hc, hc, if_pos (by rfl), next_blank hc]
      rw [hdrop]
      rcases ih true with hnil | ⟨x, r', hx, ⟨-, htrue⟩ | hspace⟩
      · exact Or.inl hnil
      · cases htrue
      · exact Or.inr ⟨x, r', hx, Or.inr hspace⟩
    | false =>
      right
      refine ⟨c, r, hc, ?_⟩
      cases pending with
      | false => exact Or.inl ⟨collapse_char hc _ r, rfl⟩
      | true => exact Or.inr (by rw [collapse_pending hc, collapse_char hc])

/-- A plain word at the beginning of a normal form was a word of the text. -/
theorem collapse_eq_word_append {d : Int} {word x : List Char} (hw : ∀ c ∈ word, isPlain c = true)
    {t : List Char} (h : collapse (Scan.at d) false t = word ++ x) :
    ∃ r, collapse (Scan.at d) false r = x := by
  induction word generalizing t with
  | nil => exact ⟨t, h⟩
  | cons a word ih =>
    obtain ⟨ha, hrest⟩ := List.forall_mem_cons.mp hw
    obtain ⟨hq, ho, hc, hb, -⟩ := isPlain_spec ha
    rcases collapse_outside d false t with hnil | ⟨c, r, -, ⟨heq, -⟩ | heq⟩
    · rw [hnil] at h
      cases h
    · rw [heq, List.cons_append] at h
      obtain ⟨rfl, hr⟩ := List.cons.inj h
      rw [next_of_other hq ho hc] at hr
      exact ih hrest hr
    · rw [heq, List.cons_append] at h
      obtain ⟨rfl, -⟩ := List.cons.inj h
      exact absurd hb (by decide)

/-- The last character stays the last. -/
theorem collapse_concat {c : Char} (hc : isBlank c = false) (l : List Char) (s : Scan)
    (pending : Bool) : ∃ l', collapse s pending (l ++ [c]) = l' ++ [c] := by
  induction l generalizing s pending with
  | nil =>
    cases pending with
    | false => exact ⟨[], collapse_char hc s []⟩
    | true => exact ⟨[' '], by rw [List.nil_append, collapse_pending hc, collapse_char hc]; rfl⟩
  | cons a l ih =>
    rw [List.cons_append, collapse]
    split
    · exact ih _ _
    · obtain ⟨l', hl⟩ := ih (s.next a) false
      rw [hl]
      split
      · exact ⟨' ' :: a :: l', rfl⟩
      · exact ⟨a :: l', rfl⟩

/-- What is left of a text is empty or ends with something that is not blank. -/
theorem trimEnd_last (s : List Char) :
    trimEnd s = [] ∨ ∃ l c, trimEnd s = l ++ [c] ∧ isBlank c = false := by
  rw [trimEnd]
  cases h : s.reverse.dropWhile isBlank with
  | nil => exact Or.inl rfl
  | cons c r =>
    right
    refine ⟨r.reverse, c, List.reverse_cons, ?_⟩
    have hhead := List.head?_dropWhile_not isBlank s.reverse
    rw [h] at hhead
    exact hhead

/-- So does a normal form. -/
theorem normalized_last (t : List Char) :
    normalized t = [] ∨ ∃ l c, normalized t = l ++ [c] ∧ isBlank c = false := by
  rw [normalized, stripped]
  rcases trimEnd_last ((dropLast? ';' (trim t)).getD (trim t)) with hnil | ⟨l, c, heq, hc⟩
  · rw [hnil]
    exact Or.inl rfl
  · rw [heq]
    obtain ⟨l', hl⟩ := collapse_concat hc l Scan.start false
    exact Or.inr ⟨l', c, hl, hc⟩

/-- A keyword, one space, and what stands behind them are the whole command. -/
theorem normalized_of_afterKeyword? {keyword : String} (hk : ∀ c ∈ keyword.toList, isPlain c = true)
    {t rest : List Char} (h : Command.afterKeyword? keyword (normalized t) = some rest)
    (hne : rest ≠ []) : normalized t = keyword.toList ++ ' ' :: rest ∧ Solid rest := by
  rw [Command.afterKeyword?] at h
  split at h
  · cases h
    exact absurd rfl hne
  · next r hdrop =>
    have heq := eq_append_of_dropLeading? hdrop
    cases h
    obtain ⟨r', hr'⟩ := collapse_eq_word_append (d := 0) hk heq
    -- behind the space comes a character that is not blank, and the command ends with one
    obtain ⟨c, x, rfl, hc⟩ : ∃ c x, r = c :: x ∧ isBlank c = false := by
      rcases collapse_outside 0 false r' with hnil | ⟨c, x, hc, ⟨hcons, -⟩ | hcons⟩
      · rw [hnil] at hr'
        cases hr'
      · rw [hcons] at hr'
        obtain ⟨rfl, -⟩ := List.cons.inj hr'
        exact absurd hc (by decide)
      · rw [hcons] at hr'
        obtain ⟨-, hx⟩ := List.cons.inj hr'
        exact ⟨c, _, hx.symm, hc⟩
    have hsolid : Solid (c :: x) := by
      refine ⟨⟨c, x, rfl, hc⟩, ?_⟩
      rcases normalized_last t with hnil | ⟨l, e, hlast, he⟩
      · rw [hnil] at heq
        exact absurd heq.symm (by simp)
      · refine ⟨(c :: x).dropLast, (c :: x).getLast (List.cons_ne_nil c x),
          (List.dropLast_concat_getLast _).symm, ?_⟩
        have hlasts := congrArg List.getLast? (heq.symm.trans hlast)
        rw [List.getLast?_concat, List.getLast?_append, List.getLast?_cons_cons,
          List.getLast?_eq_getLast_of_ne_nil (List.cons_ne_nil c x)] at hlasts
        rw [Option.some.inj hlasts]
        exact he
    rw [heq, hsolid.trim]
    exact ⟨rfl, hsolid⟩
  · cases h

/-! ## Reading -/

/-- A call of the name `use` on no collection. -/
def callsUse (ambient : Ambient) (text : String) : Bool :=
  match Command.parse ambient text with
  | .error _ => false
  | .ok c => !c.onCollection && c.operation == "use" &&
      (Command.afterKeyword? "use" (normalized text.toList)).isNone

/-- Only a command of that name and on no collection switches. -/
theorem ofCommand_eq_use {c : Command} {d : String} (h : Action.ofCommand c = .ok (.use d)) :
    c.onCollection = false ∧ c.operation = "use" ∧ c.args.head?.bind Argument.text? = some d := by
  have hmap : ∀ {α : Type} {f : α → Action} {r : Except ShellError α},
      (∀ x, f x ≠ .use d) → r.map f ≠ .ok (.use d) := by
    intro α f r hf hr
    cases r with
    | error e => cases hr
    | ok x => exact hf x (Except.ok.inj hr)
  rw [Action.ofCommand] at h
  split at h
  · rw [Action.ofCollectionCommand] at h
    split at h
    · exact absurd h (hmap fun _ => Action.noConfusion)
    · exact absurd h (hmap fun _ => Action.noConfusion)
  · next hon =>
    rw [Action.ofShellCommand] at h
    split at h
    · next hop =>
      refine ⟨Bool.eq_false_iff.mpr hon, hop, ?_⟩
      rw [Action.firstText, textArgument] at h
      split at h
      · next t ht =>
        cases h
        exact ht
      · cases h
    · split at h
      · exact absurd h (hmap fun _ => Action.noConfusion)
      · exact absurd h (hmap fun _ => Action.noConfusion)

/-- What is read from the form `use <name>` has a usable name. -/
theorem ofUse_eq_ok {name : List Char} {c : Command} (h : Command.ofUse name = .ok c) :
    Command.isDatabaseName name = true ∧ c = Command.ofWord "use" (String.ofList name) := by
  rw [Command.ofUse] at h
  split at h
  · cases h
  · split at h
    · next hname =>
      cases h
      exact ⟨hname, rfl⟩
    · cases h

/-- A command is `use <name>` with a usable name, which has no blanks at its ends. -/
structure Uses (text name : String) : Prop where
  form : normalize text = "use " ++ name
  usable : Command.isDatabaseName name.toList = true
  trimmed : Text.trimmed name = name

/-- A command that switches is `use <name>` with a usable name, or a call of that name. -/
theorem target?_eq_some {ambient : Ambient} {text d : String} (h : target? ambient text = some d) :
    Uses text d ∨ callsUse ambient text = true := by
  rw [target?] at h
  split at h
  · cases h
  · next c hparse =>
    split at h
    · next d' hd =>
      cases h
      obtain ⟨hon, hop, hargs⟩ := ofCommand_eq_use hd
      cases hafter : Command.afterKeyword? "use" (normalized text.toList) with
      | none =>
        right
        rw [callsUse, hparse]
        simp [hon, hop, hafter]
      | some rest =>
        left
        have hread := hparse
        rw [Command.parse, Command.ofNormalized, hafter] at hread
        split at hread
        · cases hread
        · obtain ⟨hname, rfl⟩ := ofUse_eq_ok hread
          obtain rfl : String.ofList rest = d := Option.some.inj hargs
          have hne : rest ≠ [] := by
            rintro rfl
            exact absurd hname (by decide)
          have hplain : ∀ c ∈ "use".toList, isPlain c = true := List.all_eq_true.mp (by decide)
          obtain ⟨hnormal, hsolid⟩ := normalized_of_afterKeyword? hplain hafter hne
          have hsplit : "use".toList ++ ' ' :: rest = "use ".toList ++ rest := rfl
          refine ⟨?_, by rwa [String.toList_ofList], ?_⟩
          · rw [normalize, hnormal, hsplit, String.ofList_append, String.ofList_toList]
          · rw [Text.trimmed, String.toList_ofList, hsolid.trim]
    · cases h

/-- Without such a call it is the first form. -/
theorem use_of_target? {ambient : Ambient} {text d : String} (hcall : callsUse ambient text = false)
    (h : target? ambient text = some d) : Uses text d := by
  refine (target?_eq_some h).resolve_right fun htrue => ?_
  rw [hcall] at htrue
  cases htrue

/-- Text that goes on behind `db.` -/
def isExpression (text : String) : Bool :=
  (dropLeading? "db.".toList (normalized text.toList)).isSome

/-- An expression that is no such call switches to nothing. -/
theorem target?_of_isExpression {ambient : Ambient} {text : String}
    (hcall : callsUse ambient text = false) (h : isExpression text = true) :
    target? ambient text = none := by
  rw [Option.eq_none_iff_forall_ne_some]
  intro d hd
  have hnormal := (use_of_target? hcall hd).form
  rw [normalize] at hnormal
  have hlist := congrArg String.toList hnormal
  rw [String.toList_ofList, String.toList_append] at hlist
  rw [isExpression, hlist] at h
  cases h

/-! ## Switching -/

/-- Only usable names are selected. -/
def SelectsUsable (q : Exchange Connection Request) : Prop :=
  ∀ k d, q = .pool (.select k d) → Command.isDatabaseName d.toList = true

/-- Nothing is asked of the pool that changes what is selected. -/
def LeavesSelected (q : Exchange Connection Request) : Prop := ∀ c, q = .pool c → Pool.LeavesSelected c

theorem execute_selectsUsable {ambient : Ambient} {text : String}
    (hcall : callsUse ambient text = false) (k : PoolKey) :
    (execute ambient k text).Always SelectsUsable fun _ => True := by
  refine (execute_always ambient k text).mono (fun q hq => ?_) fun _ _ => trivial
  rintro k' d rfl
  exact (use_of_target? hcall hq.2).usable

theorem execute_leavesSelected {ambient : Ambient} {text : String}
    (h : target? ambient text = none) (k : PoolKey) :
    (execute ambient k text).Always LeavesSelected fun _ => True := by
  refine (execute_always ambient k text).mono (fun q hq => ?_) fun _ _ => trivial
  rintro c rfl
  rw [h] at hq
  cases c with
  | acquire k' => trivial
  | select k' d => cases hq.2
  | replace k' c => cases hq.2
  | _ => exact hq.elim

namespace Turn

/-- A command that does not call `use`, or a pool call that selects nothing. -/
def IsProper : Turn → Prop
  | .command ambient _ text => callsUse ambient text = false
  | .call (.select _ _) => False
  | .call _ => True

/-- An expression that does not call `use`, or a pool call that leaves alone what is selected. -/
def IsAside : Turn → Prop
  | .command ambient _ text => callsUse ambient text = false ∧ isExpression text = true
  | .call c => Pool.LeavesSelected c

theorem session_always {turn : Turn} {P : Exchange Connection Request → Prop}
    (hcommand : ∀ ambient k text, turn = .command ambient k text →
      (execute ambient k text).Always P fun _ => True)
    (hcall : ∀ c, turn = .call c → P (.pool c)) : turn.session.Always P fun _ => True := by
  cases turn with
  | command ambient k text => exact (hcommand ambient k text rfl).bind fun _ _ => trivial
  | call c => exact Dialogue.Always.bind (.question (hcall c rfl)) fun _ _ => trivial

theorem IsProper.selectsUsable {turn : Turn} (h : turn.IsProper) :
    turn.session.Always SelectsUsable fun _ => True := by
  refine session_always ?_ ?_
  · rintro ambient k text rfl
    exact execute_selectsUsable h k
  · rintro c rfl k d hc
    cases hc
    exact h.elim

theorem IsAside.leavesSelected {turn : Turn} (h : turn.IsAside) :
    turn.session.Always LeavesSelected fun _ => True := by
  refine session_always ?_ ?_
  · rintro ambient k text rfl
    exact execute_leavesSelected (target?_of_isExpression h.1 h.2) k
  · rintro c rfl c' hc
    cases hc
    exact h

end Turn

/-- A command that is carried out with nothing in between changes what is selected only if its
    session asks for that. -/
theorem selected_run {σ α : Type} (party : Session.Party σ Connection Request Answer)
    {d : Session Connection Request Answer α} (h : d.Always LeavesSelected fun _ => True)
    (p : Pool Connection) (s : σ) : (Session.run party d p s).2.1.selected = p.selected := by
  refine h.hold_unchanged party.answer (fun x : Pool Connection × σ => x.1.selected) ?_ (p, s)
  rintro q ⟨p, s⟩ hq
  cases q with
  | pool c => exact Pool.selected_perform party.toOutside (hq c rfl) p s
  | server c q => rfl

/-- Unless somebody calls it, only `use <name>` switches, and only to a usable name: a command that
    reports a change is of that form, every database that is recorded in a state which commands can
    come to has a usable name, and expressions leave alone what is recorded. -/
theorem only_use_switches {σ : Type} (party : Session.Party σ Connection Request Answer)
    {ambient : Ambient} {text : String} (hcall : callsUse ambient text = false) (k : PoolKey)
    (p : Pool Connection) (s : σ) {settings : PoolSettings} {scripts : List (List Turn)}
    (hscripts : ∀ script ∈ scripts, ∀ turn ∈ script, turn.IsProper)
    {m : Pool.Concert Connection Request Answer Unit}
    (h : Pool.Concert.Reachable settings (scripts.map Turn.all) m) :
    (∀ o name, (Session.run party (execute ambient k text) p s).1 = .ok o →
      o.changedDatabase = some name →
        normalize text = "use " ++ name ∧ Command.isDatabaseName name.toList = true) ∧
    (isExpression text = true →
      (Session.run party (execute ambient k text) p s).2.1.selected = p.selected) ∧
    (∀ k d, m.pool.selection? k = some d → Command.isDatabaseName d.toList = true) ∧
    ∀ mv m' script, m.step? mv = some m' → scripts[mv.task]? = some script →
      (∀ turn ∈ script, turn.IsAside) → m'.pool.selected = m.pool.selected := by
  refine ⟨fun o name ho hname => ?_, fun hexpr => ?_, fun k d hd => ?_,
    fun mv m' script hs hw haside => ?_⟩
  · have hreport := (execute_always ambient k text).hold party.answer (p, s) o ho
    rw [hname] at hreport
    have huses := use_of_target? hcall hreport.symm
    exact ⟨huses.form, huses.usable⟩
  · exact selected_run party (execute_leavesSelected (target?_of_isExpression hcall hexpr) k) p s
  · have hworks : ∀ w ∈ scripts.map Turn.all, w.Always SelectsUsable fun _ => True := by
      intro w hw
      obtain ⟨script, hscript, rfl⟩ := List.mem_map.mp hw
      exact Turn.all_always fun turn hturn => (hscripts script hscript turn hturn).selectsUsable
    rw [Pool.selection?, Option.map_eq_some_iff] at hd
    obtain ⟨x, hfind, rfl⟩ := hd
    exact h.selected (V := fun _ d => Command.isDatabaseName d.toList = true)
      (fun k d hP => hP k d rfl) hworks x (List.mem_of_find?_eq_some hfind)
  · refine h.selected_of_step? hs (w := Turn.all script) ?_
      (Turn.all_always fun turn hturn => (haside turn hturn).leavesSelected)
    rw [List.getElem?_map, hw]
    rfl

/-- One session switches, and what another one asks in between leaves the record alone. -/
theorem only_use_switches_shop :
    ∃ (ambient : Ambient) (k : PoolKey) (party : Session.Party Unit Connection Request Answer)
      (m m' : Pool.Concert Connection Request Answer Unit),
      (∃ o, (Session.run party (execute ambient k " use  shop;") (Pool.empty default) ()).1 = .ok o ∧
        o.changedDatabase = some "shop") ∧
      normalize " use  shop;" = "use " ++ "shop" ∧
      Pool.Concert.Reachable default
        (([[.command ambient k " use  shop;"], [.command ambient k "db.getName()"]] :
          List (List Turn)).map Turn.all) m ∧
      m.pool.selection? k = some "shop" ∧ Command.isDatabaseName "shop".toList = true ∧
      m.step? ⟨1, 0, .timedOut, .ok [], []⟩ = some m' ∧ m'.pool.selected = m.pool.selected := by
  let ambient : Ambient := ⟨0, fun _ => default⟩
  let k : PoolKey := ⟨.document, "localhost", 27017, none, none, none, some "1"⟩
  let party : Session.Party Unit Connection Request Answer :=
    ⟨⟨fun _ => 0, fun _ s => (.opened ⟨0, "test"⟩, s), fun _ s => s, fun _ s => s⟩,
      fun _ _ s => (.ok [], s)⟩
  let scripts : List (List Turn) :=
    [[.command ambient k " use  shop;"], [.command ambient k "db.getName()"]]
  let turn (t : Nat) : Pool.Move Connection Answer := ⟨t, 0, .opened ⟨t, "test"⟩, .ok [], []⟩
  -- the second session begins while the first is about to put its new handle in place
  let mvs := [0, 0, 0, 0, 0, 0, 0, 0, 0, 0, 0, 1, 1].map turn
  have hplay : ((Pool.Concert.start default (scripts.map Turn.all)).play? mvs).any (fun m =>
      m.pool.selection? k = some "shop" && (m.step? ⟨1, 0, .timedOut, .ok [], []⟩).isSome) =
        true := by decide +kernel
  obtain ⟨m, hm, hstate⟩ := (Option.any_eq_true _ _).mp hplay
  rw [Bool.and_eq_true, decide_eq_true_eq, Option.isSome_iff_exists] at hstate
  obtain ⟨hselected, m', hstep⟩ := hstate
  have huse : callsUse ambient " use  shop;" = false := by decide +kernel
  have hname : callsUse ambient "db.getName()" = false ∧ isExpression "db.getName()" = true := by
    decide +kernel
  have hscripts : ∀ script ∈ scripts, ∀ turn ∈ script, turn.IsProper := by
    refine List.forall_mem_cons.mpr ⟨?_, List.forall_mem_singleton.mpr ?_⟩
    · exact List.forall_mem_singleton.mpr huse
    · exact List.forall_mem_singleton.mpr hname.1
  have hreach : Pool.Concert.Reachable default (scripts.map Turn.all) m := ⟨mvs, hm⟩
  obtain ⟨hreport, -, hvalid, haside⟩ :=
    only_use_switches party huse k (Pool.empty default) () hscripts hreach
  have hrun : (Session.run party (execute ambient k " use  shop;") (Pool.empty default)
      ()).1.toOption.bind Outcome.changedDatabase = some "shop" := by decide +kernel
  obtain ⟨o, ho, hchanged⟩ := Option.bind_eq_some_iff.mp hrun
  have hok : (Session.run party (execute ambient k " use  shop;") (Pool.empty default) ()).1 =
      .ok o := by
    cases hr : (Session.run party (execute ambient k " use  shop;") (Pool.empty default) ()).1 with
    | ok o' =>
      rw [hr] at ho
      exact congrArg Except.ok (Option.some.inj ho)
    | error e =>
      rw [hr] at ho
      cases ho
  obtain ⟨hnormal, -⟩ := hreport o "shop" hok hchanged
  exact ⟨ambient, k, party, m, m', ⟨o, hok, hchanged⟩, hnormal, hreach, hselected,
    hvalid k "shop" hselected, hstep, haside _ m' _ hstep rfl
      (List.forall_mem_singleton.mpr hname)⟩

/-- The call that is read without the check. -/
example : target? ⟨0, fun _ => default⟩ "db.use('a b')" = some "a b" := by decide +kernel

end Polyshell.Mongo
