/-
  What a chain of methods makes of a query.

  1. **One call** — what a call asks for is read off its name and its arguments alone
     (`Change.ofCall`); the query does not matter.  A call that is refused leaves no trace, for the
     query is looked at only after its arguments were read (`applyCall_eq`).

  2. **Many changes** — every change concerns one part of the query, so of several changes each part
     keeps the last that concerns it, and populations add up (`Query.after`).

  3. **Chains** — the calls are carried out up to the first one that is refused; that one's fault is the
     fault of the chain (`applyChain_exact`).
-/
import Polyshell.Mongo.Query

namespace Polyshell.Mongo

/-! ## One call -/

/-- The one part of a query that a call changes. -/
inductive Change where
  | limit (n : Int)
  | skip (n : Nat)
  | sort (order : Document)
  | projection (fields : Document)
  | populate (p : Populate)
  | lean (wanted : Bool)
  | terminal (t : Terminal)
  | nothing

namespace Change

/-- What a method asks for with these arguments. -/
def ofMethod (m : Query.Method) (args : List Argument) : Except ShellError Change :=
  match m with
  | .limit => (integerArgument "limit" args).map .limit
  | .skip =>
    (integerArgument "skip" args).bind fun n =>
      if n < 0 then badArgument "skip" "must not be negative" else .ok (.skip n.toNat)
  | .sort =>
    match args with
    | [] => badArgument "sort" "a sort specification is required"
    | a :: _ => (sortOf a).map .sort
  | .select =>
    match args with
    | [] => badArgument "select" "a projection is required"
    | a :: _ => (projectionOf "select" a).map .projection
  | .populate => (populateOf args).map .populate
  | .lean => .ok (.lean ((args.head?.bind Argument.bool?).getD true))
  | .exec => .ok .nothing
  | .count => .ok (.terminal .count)
  | .distinct =>
    match args.head?.bind Argument.text? with
    | none => badArgument "distinct" "a field name is required"
    | some field => .ok (.terminal (.distinct field))

/-- What a call asks for, or what it is refused for. -/
def ofCall (c : Call) : Except ShellError Change :=
  match Query.Method.ofName? c.method with
  | none => .error (.unsupported (.chainMethod c.method))
  | some m => ofMethod m c.args

/-! The groups of changes: one for each part of a query. -/

def limit? : Change → Option Int
  | .limit n => some n
  | _ => none

def skip? : Change → Option Nat
  | .skip n => some n
  | _ => none

def sort? : Change → Option Document
  | .sort d => some d
  | _ => none

def projection? : Change → Option Document
  | .projection d => some d
  | _ => none

def populate? : Change → Option Populate
  | .populate p => some p
  | _ => none

def lean? : Change → Option Bool
  | .lean b => some b
  | _ => none

def terminal? : Change → Option Terminal
  | .terminal t => some t
  | _ => none

/-- What the last change of a group sets. -/
def last? {α : Type} (group : Change → Option α) (cs : List Change) : Option α :=
  (cs.filterMap group).getLast?

end Change

/-- The change that a call asks for, unless it is refused. -/
def Call.change? (c : Call) : Option Change := (Change.ofCall c).toOption

/-- Whether the method of a call is known and accepts its arguments. -/
def Call.isAccepted (c : Call) : Bool := c.change?.isSome

/-- The names of the methods. -/
def Query.Method.names : List String :=
  ["limit", "skip", "sort", "select", "project", "populate", "lean", "exec", "count", "distinct"]

theorem Query.Method.ofName?_eq_none_iff {name : String} :
    Query.Method.ofName? name = none ↔ name ∉ Query.Method.names := by
  simp only [Query.Method.ofName?, Query.Method.names, List.mem_cons, List.not_mem_nil]
  grind

namespace Query

/-- The query with one change. -/
def changed (q : Query) : Change → Query
  | .limit n => { q with limit := some n }
  | .skip n => { q with skip := some n }
  | .sort d => { q with sort := some d }
  | .projection d => { q with projection := some d }
  | .populate p => { q with populate := q.populate ++ [p] }
  | .lean b => { q with lean := b }
  | .terminal t => { q with terminal := some t }
  | .nothing => q

/-- A call does what it asks for, or is refused; which of them, no query decides. -/
theorem applyCall_eq (q : Query) (c : Call) : q.applyCall c = (Change.ofCall c).map q.changed := by
  rw [applyCall, Change.ofCall]
  cases Method.ofName? c.method with
  | none => rfl
  | some m =>
    dsimp only
    unfold applyMethod Change.ofMethod
    cases m with
    | limit => cases integerArgument "limit" c.args <;> rfl
    | skip =>
      cases integerArgument "skip" c.args with
      | error e => rfl
      | ok n =>
        dsimp only [Except.bind]
        split <;> rfl
    | sort =>
      cases c.args with
      | nil => rfl
      | cons a r =>
        dsimp only
        cases sortOf a <;> rfl
    | select =>
      cases c.args with
      | nil => rfl
      | cons a r =>
        dsimp only
        cases projectionOf "select" a <;> rfl
    | populate => cases populateOf c.args <;> rfl
    | lean => rfl
    | exec => rfl
    | count => rfl
    | distinct => cases c.args.head?.bind Argument.text? <;> rfl

/-! ## Many changes -/

/-- The query with several changes: each part holds what the last change of it sets, or what it held
    before; populations stand behind those that were there. -/
def after (q : Query) (cs : List Change) : Query where
  filter := q.filter
  single := q.single
  projection := (Change.last? Change.projection? cs).or q.projection
  sort := (Change.last? Change.sort? cs).or q.sort
  skip := (Change.last? Change.skip? cs).or q.skip
  limit := (Change.last? Change.limit? cs).or q.limit
  lean := (Change.last? Change.lean? cs).getD q.lean
  populate := q.populate ++ cs.filterMap Change.populate?
  terminal := (Change.last? Change.terminal? cs).or q.terminal

theorem after_nil (q : Query) : q.after [] = q := by
  obtain ⟨filter, single, projection, sort, skip, limit, lean, populate, terminal⟩ := q
  simp [after, Change.last?]

end Query

/-- A change is the last of its group unless one of the group comes behind it. -/
theorem Change.last?_cons {α : Type} (group : Change → Option α) (ch : Change) (cs : List Change) :
    Change.last? group (ch :: cs) = (Change.last? group cs).or (group ch) := by
  rw [Change.last?, Change.last?, List.filterMap_cons]
  cases group ch with
  | none => simp
  | some x => simp [List.getLast?_cons]

namespace Query

/-- The changes take effect one after another. -/
theorem after_cons (q : Query) (ch : Change) (cs : List Change) :
    q.after (ch :: cs) = (q.changed ch).after cs := by
  simp only [after, Change.last?_cons, Option.or_assoc, List.filterMap_cons]
  cases ch <;> simp [changed, Change.limit?, Change.skip?, Change.sort?, Change.projection?,
    Change.populate?, Change.lean?, Change.terminal?]

/-! ## Chains -/

/-- An accepted call changes the query, and the chain goes on. -/
theorem applyChain_of_accepted (q : Query) {c : Call} {ch : Change}
    (h : Change.ofCall c = .ok ch) (r : List Call) :
    q.applyChain (c :: r) = (q.changed ch).applyChain r := by
  rw [applyChain, applyCall_eq, h]
  rfl

/-- A refused call ends the chain, and leaves the query as it was. -/
theorem applyChain_of_refused (q : Query) {c : Call} {e : ShellError}
    (h : Change.ofCall c = .error e) (r : List Call) : q.applyChain (c :: r) = (q, some e) := by
  rw [applyChain, applyCall_eq, h]
  rfl

/-- A chain does what its calls ask for up to the first that is refused. -/
theorem applyChain_eq (q : Query) (chain : List Call) :
    (q.applyChain chain).1 = q.after ((chain.takeWhile Call.isAccepted).filterMap Call.change?) ∧
      match chain.dropWhile Call.isAccepted with
      | [] => (q.applyChain chain).2 = none
      | c :: _ => ∃ e, Change.ofCall c = .error e ∧ (q.applyChain chain).2 = some e := by
  induction chain generalizing q with
  | nil => exact ⟨(after_nil q).symm, rfl⟩
  | cons c r ih =>
    cases h : Change.ofCall c with
    | error e =>
      have hrefused : Call.isAccepted c = false := by rw [Call.isAccepted, Call.change?, h]; rfl
      rw [applyChain_of_refused q h, List.takeWhile_cons, List.dropWhile_cons, hrefused]
      exact ⟨(after_nil q).symm, e, h, rfl⟩
    | ok ch =>
      have hchange : Call.change? c = some ch := by rw [Call.change?, h]; rfl
      have haccepted : Call.isAccepted c = true := by rw [Call.isAccepted, hchange]; rfl
      rw [applyChain_of_accepted q h, List.takeWhile_cons, List.dropWhile_cons, haccepted, if_pos rfl,
        if_pos rfl, List.filterMap_cons_some hchange, after_cons]
      exact ih (q.changed ch)

/-- The calls before the first one that is refused decide what becomes of a query, each part of it
    separately; the chain fails exactly if one is refused, and with the fault of that one. -/
theorem applyChain_exact (q : Query) (chain : List Call) :
    (q.applyChain chain).1 = q.after ((chain.takeWhile Call.isAccepted).filterMap Call.change?) ∧
    ((q.applyChain chain).2 = none ↔ chain.takeWhile Call.isAccepted = chain) ∧
    ∀ c, (chain.dropWhile Call.isAccepted).head? = some c →
      ∃ e, Change.ofCall c = .error e ∧ (q.applyChain chain).2 = some e ∧
        (c.method ∉ Method.names → e = .unsupported (.chainMethod c.method)) := by
  obtain ⟨hquery, hfault⟩ := applyChain_eq q chain
  refine ⟨hquery, ?_, fun c hc => ?_⟩
  · have hsplit := List.takeWhile_append_dropWhile (p := Call.isAccepted) (l := chain)
    cases hrest : chain.dropWhile Call.isAccepted with
    | nil =>
      rw [hrest] at hfault
      rw [hrest, List.append_nil] at hsplit
      exact iff_of_true hfault hsplit
    | cons c r =>
      rw [hrest] at hfault
      obtain ⟨e, -, he⟩ := hfault
      refine iff_of_false (by rw [he]; exact Option.some_ne_none e) fun hall => ?_
      rw [hrest, hall] at hsplit
      exact List.cons_ne_nil c r (List.append_right_eq_self.mp hsplit)
  · cases hrest : chain.dropWhile Call.isAccepted with
    | nil =>
      rw [hrest] at hc
      cases hc
    | cons c' r =>
      rw [hrest] at hc hfault
      cases hc
      obtain ⟨e, he, hchain⟩ := hfault
      refine ⟨e, he, hchain, fun hunknown => ?_⟩
      rw [Change.ofCall, Method.ofName?_eq_none_iff.mpr hunknown] at he
      exact (Except.error.inj he).symm

/-- The second limit counts, and the skip that is refused leaves everything as it was; what comes
    behind it is not looked at. -/
theorem applyChain_exact_refused :
    let skip : Call := ⟨"skip", [.number (.int (-1))]⟩
    let chain : List Call := [⟨"limit", [.number (.int 3)]⟩, ⟨"populate", [.str "author"]⟩,
      ⟨"lean", [.bool false]⟩, ⟨"exec", []⟩, ⟨"limit", [.number (.int 5)]⟩, skip, ⟨"count", []⟩]
    let q : Query := ofFilter [] false
    (chain.dropWhile Call.isAccepted).head? = some skip ∧
      q.applyChain chain =
        ({ q with limit := some 5, populate := [⟨"author", none, none⟩], lean := false },
          some (.parse (.invalidArgument "skip" "must not be negative"))) := by
  intro skip chain q
  have hhead : (chain.dropWhile Call.isAccepted).head? = some skip := rfl
  obtain ⟨hquery, -, hfault⟩ := applyChain_exact q chain
  obtain ⟨e, he, hchain, -⟩ := hfault skip hhead
  refine ⟨hhead, Prod.ext hquery ?_⟩
  rw [hchain]
  cases he
  rfl

end Query
end Polyshell.Mongo
