/-
  The database that is reported and the one that is remembered.

  A command that changes the database reports a label for it, which the prompt shows from then on;
  the pool remembers the database itself.  The label of a key-value database stands in brackets,
  the others are the names as they are (`Denotes`).

  1. **One command** — `Reported b before behind r`: what `r` reports fits to what the pool
     remembered before a command and remembers behind it.  There is one lemma for each kind of
     server.

  2. **A session** — `Turn.run` is one turn of a session, `record` are all of them.  No turn brings
     the two apart, so what the prompt shows is what is remembered (`prompt_shows_selection`).
-/
import Polyshell.Repl
import Polyshell.Proofs.Mongo.Refusal

namespace Polyshell

/-! ## Labels -/

/-- The label of a database of a kind of server. -/
def Denotes : Backend → (label database : String) → Prop
  | .keyValue, label, database => label = "[db" ++ database ++ "]"
  | .relational, label, database => label = database
  | .document, label, database => label = database

/-- A label denotes one database. -/
theorem Denotes.unique {b : Backend} {label d d' : String} (h : Denotes b label d)
    (h' : Denotes b label d') : d' = d := by
  cases b with
  | keyValue =>
    have heq : ("[db" ++ d ++ "]").toList = ("[db" ++ d' ++ "]").toList :=
      congrArg String.toList (h.symm.trans h')
    rw [String.toList_append, String.toList_append, String.toList_append, String.toList_append]
      at heq
    exact (String.toList_inj.mp (List.append_cancel_left (List.append_cancel_right heq))).symm
  | relational => exact h'.symm.trans h
  | document => exact h'.symm.trans h

/-- What is remembered behind a command fits to its outcome. -/
def Reported (b : Backend) (before behind : Option String) : Except ShellError Outcome → Prop
  | .error _ => behind = before
  | .ok o =>
    match o.changedDatabase with
    | none => behind = before
    | some label => ∃ d, Denotes b label d ∧ behind = some d

/-! ## One command -/

section Commands

variable {σ : Type} (k : PoolKey) (s : σ)

/-- Nothing is reported, and nothing else remembered. -/
theorem Reported.kept {b : Backend} {before behind : Option String} (h : behind = before)
    {r : Except ShellError Outcome} (hr : ∀ o, r = .ok o → o.changedDatabase = none) :
    Reported b before behind r := by
  cases r with
  | error e => exact h
  | ok o =>
    rw [Reported, hr o rfl]
    exact h

/-- What follows a statement has the pool remember what it reports, and nothing else. -/
theorem Sql.run_follow (party : Session.Party σ Nat Sql.Request Sql.Answer) (h : Nat)
    (kind : Sql.StatementKind) (statement : String) (p : Pool Nat) :
    (Session.run party (Sql.follow k h kind statement) p s).2.1 =
      match (Session.run party (Sql.follow k h kind statement) p s).1 with
      | .ok (some d) => p.select k d
      | _ => p := by
  rw [Sql.follow]
  split
  · rw [Sql.followUse, Session.run_bind, Session.run_send]
    dsimp only
    split
    · rfl
    · split
      · rfl
      · rw [Session.run_bind, Session.run_select]
        rfl
  · rfl

/-- A statement reports the database that the server says is selected behind it. -/
theorem Sql.reported (party : Session.Party σ Nat Sql.Request Sql.Answer) (style : Sql.TableStyle)
    (statement : String) (p : Pool Nat) :
    Reported .relational (p.selection? k)
      ((Session.run party (Sql.execute style k statement) p s).2.1.selection? k)
      (Session.run party (Sql.execute style k statement) p s).1 := by
  rw [Sql.execute]
  obtain ⟨p', s', hselected, -, ⟨e, hrun, -⟩ | ⟨h, -, hrun, -⟩⟩ := Session.run_acquire party k p s _
  · rw [hrun]
    exact Pool.selection?_congr hselected k
  · rw [hrun, ← Pool.selection?_congr hselected k, Session.run_bind, Session.run_send]
    dsimp only
    cases Sql.accepted statement (party.send h (.query statement) s').1 with
    | error e => exact rfl
    | ok results =>
      have hfollow := Sql.run_follow k (party.send h (.query statement) s').2 party h
        (Sql.classify statement) statement p'
      dsimp only
      rw [Dialogue.andThen, Session.run_bind]
      generalize Session.run party (Sql.follow k h (Sql.classify statement) statement) p'
        (party.send h (.query statement) s').2 = followed at hfollow ⊢
      obtain ⟨changed, p'', s''⟩ := followed
      rw [hfollow]
      cases changed with
      | error e => exact rfl
      | ok changed =>
        cases changed with
        | none => exact rfl
        | some d => exact ⟨d, rfl, Pool.selection?_select p' k d⟩

/-- A `SELECT` that the server accepted reports the database that it named. -/
theorem Redis.reported (party : Session.Party σ Nat Redis.Request Redis.Answer) (line : String)
    (p : Pool Nat) :
    Reported .keyValue (p.selection? k)
      ((Session.run party (Redis.execute k line) p s).2.1.selection? k)
      (Session.run party (Redis.execute k line) p s).1 := by
  rw [Redis.execute]
  split
  · exact rfl
  · obtain ⟨p', s', hselected, -, ⟨e, hrun, -⟩ | ⟨h, -, hrun, -⟩⟩ :=
      Session.run_acquire party k p s _
    · rw [hrun]
      exact Pool.selection?_congr hselected k
    · rw [hrun, ← Pool.selection?_congr hselected k, Session.run_bind, Session.run_send]
      dsimp only
      cases Redis.accepted (party.send h (Redis.tokenize line) s').1 with
      | error e => exact rfl
      | ok reply =>
        dsimp only
        rw [Session.run_bind, Redis.remember, Redis.selectedDatabase]
        cases Redis.selectIndex (Redis.tokenize line) with
        | none => exact rfl
        | some index =>
          dsimp only
          rw [Session.run_select]
          exact ⟨index, rfl, Pool.selection?_select p' k index⟩

/-- A switch reports the database that it is to; no other command of the document shell reports
    any. -/
theorem Mongo.reported (party : Session.Party σ Mongo.Connection Mongo.Request Mongo.Answer)
    (ambient : Mongo.Ambient) (text : String) (p : Pool Mongo.Connection) :
    Reported .document (p.selection? k)
      ((Session.run party (Mongo.execute ambient k text) p s).2.1.selection? k)
      (Session.run party (Mongo.execute ambient k text) p s).1 := by
  rcases Mongo.execute_cases ambient k text with ⟨e, he⟩ | ⟨-, work, -, he, hwork⟩
  · rw [he]
    exact rfl
  · rw [he]
    obtain ⟨p', s', hselected, -, ⟨e, hrun, -⟩ | ⟨c, hready, hrun, -⟩⟩ :=
      Session.run_acquire party k p s work
    · rw [hrun]
      exact Pool.selection?_congr hselected k
    · rw [hrun, ← Pool.selection?_congr hselected k]
      rcases hwork with ⟨d, -, hd⟩ | ⟨-, hover⟩
      · obtain ⟨hout, hselection⟩ := Mongo.run_switch party hready d s'
        rw [hd c, hout]
        exact ⟨d, rfl, hselection⟩
      · have hkept := Mongo.pool_of_over party (p', s') (hover c)
        refine .kept ?_ ((hover c).hold party.answer (p', s'))
        rw [Session.run, hkept]

end Commands

/-! ## A session -/

namespace Executor

variable {σ : Type}

/-- The database that the pool for a kind of server remembers for a key. -/
def selection? (x : Executor) (k : PoolKey) : Backend → Option String
  | .relational => x.relational.selection? k
  | .keyValue => x.keyValue.selection? k
  | .document => x.document.selection? k

/-- A turn of a session: a command, or a sweep that comes between two commands. -/
inductive Turn where
  | command (ambient : Mongo.Ambient) (text : String)
  | sweepAt (now : Nat)

/-- A turn with what came of it. -/
structure Entry where
  /-- The outcome, if the turn was a command. -/
  outcome : Option (Except ShellError Outcome)
  /-- What was remembered before the turn. -/
  before : Option String
  /-- What is remembered behind it. -/
  behind : Option String

/-- What happens in a turn. -/
def Turn.run (net : Network σ) (b : Backend) (k : PoolKey) (x : Executor) (s : σ) :
    Turn → Option (Except ShellError Outcome) × Executor × σ
  | .command ambient text =>
    let held := x.executeAt net ambient b k text s
    (some held.1, held.2)
  | .sweepAt now => (none, (x.onPools net (.sweepAt now) s).2)

/-- The turns of a session, one after another, and the executor behind them. -/
def record (net : Network σ) (b : Backend) (k : PoolKey) :
    List Turn → Executor → σ → List Entry × Executor
  | [], x, _ => ([], x)
  | t :: ts, x, s =>
    let held := t.run net b k x s
    let later := record net b k ts held.2.1 held.2.2
    (⟨held.1, x.selection? k b, held.2.1.selection? k b⟩ :: later.1, later.2)

/-- What is remembered fits to what is reported; a sweep changes nothing. -/
def Entry.Agrees (b : Backend) (e : Entry) : Prop :=
  match e.outcome with
  | none => e.behind = e.before
  | some r => Reported b e.before e.behind r

/-- The prompt behind a turn. -/
def Entry.prompt (p : Prompt) (e : Entry) : Prompt :=
  match e.outcome with
  | some (.ok o) => Repl.promptAfter p o
  | _ => p

/-- The prompt shows the database that is remembered, or none, and then the one that was remembered
    at the beginning still is. -/
def Shows (b : Backend) (initial remembered : Option String) (p : Prompt) : Prop :=
  match p.database with
  | none => remembered = initial
  | some label => ∃ d, remembered = some d ∧ ∀ d', Denotes b label d' ↔ d' = d

variable (net : Network σ) (b : Backend) (k : PoolKey)

/-- A command reports what is remembered. -/
theorem executeAt_reported (ambient : Mongo.Ambient) (x : Executor) (text : String) (s : σ) :
    Reported b (x.selection? k b) ((x.executeAt net ambient b k text s).2.1.selection? k b)
      (x.executeAt net ambient b k text s).1 := by
  cases b with
  | relational => exact Sql.reported k s net.relational x.tableStyle text x.relational
  | keyValue => exact Redis.reported k s net.keyValue text x.keyValue
  | document =>
    have hreported := Mongo.reported k s net.document ambient text x.document
    rw [executeAt]
    -- only what the run comes to matters here, not how
    generalize Session.run net.document (Mongo.execute ambient k text) x.document s = held
      at hreported ⊢
    exact hreported

/-- A sweep leaves what the pools remember. -/
theorem selection?_sweep (x : Executor) (now : Nat) (s : σ) :
    (x.onPools net (.sweepAt now) s).2.1.selection? k b = x.selection? k b := by
  have hleaves : ∀ {H : Type}, Pool.LeavesSelected (.sweepAt now : PoolCall H) := trivial
  cases b with
  | relational => exact Pool.selection?_congr (Pool.selected_perform _ hleaves _ _) k
  | keyValue => exact Pool.selection?_congr (Pool.selected_perform _ hleaves _ _) k
  | document => exact Pool.selection?_congr (Pool.selected_perform _ hleaves _ _) k

/-- A turn does not bring the two apart. -/
theorem Turn.agrees (t : Turn) (x : Executor) (s : σ) :
    Entry.Agrees b ⟨(t.run net b k x s).1, x.selection? k b,
      (t.run net b k x s).2.1.selection? k b⟩ := by
  cases t with
  | command ambient text => exact executeAt_reported net b k ambient x text s
  | sweepAt now => exact selection?_sweep net b k x now s

/-- Where they agree, the prompt goes on to show what is remembered. -/
theorem Entry.Agrees.shows {e : Entry} (h : e.Agrees b) {initial : Option String} {p : Prompt}
    (hp : Shows b initial e.before p) : Shows b initial e.behind (e.prompt p) := by
  obtain ⟨outcome, before, behind⟩ := e
  match outcome with
  | none =>
    rw [show behind = before from h]
    exact hp
  | some (.error fault) =>
    rw [show behind = before from h]
    exact hp
  | some (.ok ⟨text, none⟩) =>
    rw [show behind = before from h]
    exact hp
  | some (.ok ⟨text, some label⟩) =>
    obtain ⟨d, hd, hbehind⟩ : ∃ d, Denotes b label d ∧ behind = some d := h
    exact ⟨d, hbehind, fun d' => ⟨hd.unique, fun heq => heq ▸ hd⟩⟩

/-- All turns of a session. -/
theorem record_shows (turns : List Turn) (x : Executor) (s : σ) (initial : Option String)
    (p : Prompt) (hp : Shows b initial (x.selection? k b) p) :
    (∀ e ∈ (record net b k turns x s).1, e.Agrees b) ∧
      Shows b initial ((record net b k turns x s).2.selection? k b)
        ((record net b k turns x s).1.foldl Entry.prompt p) := by
  induction turns generalizing x s p with
  | nil => exact ⟨fun e he => absurd he List.not_mem_nil, hp⟩
  | cons t ts ih =>
    have hagrees := t.agrees net b k x s
    have hnext := hagrees.shows b hp
    rw [record]
    generalize t.run net b k x s = held at hagrees hnext ⊢
    obtain ⟨hlater, hshown⟩ := ih held.2.1 held.2.2 _ hnext
    exact ⟨List.forall_mem_cons.mpr ⟨hagrees, hlater⟩, hshown⟩

/-- Every command of a session reports what is remembered: behind an error, or without a report, it
    is what it was before; and behind a report it is the database that the label denotes.  So the
    prompt of a session, which shows the label that was reported last, shows the one database that
    the pool remembers for its key. -/
theorem prompt_shows_selection (turns : List Turn) (x : Executor) (s : σ) (connection : String) :
    (∀ e ∈ (record net b k turns x s).1, e.Agrees b) ∧
      Shows b (x.selection? k b) ((record net b k turns x s).2.selection? k b)
        ((record net b k turns x s).1.foldl Entry.prompt ⟨connection, none⟩) :=
  record_shows net b k turns x s (x.selection? k b) ⟨connection, none⟩ rfl

end Executor
end Polyshell
