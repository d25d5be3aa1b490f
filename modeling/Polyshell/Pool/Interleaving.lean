/-
  Pool operations that come between one another.

  Several tasks work with one pool.  Each holds a session: it makes pool calls, and asks servers in
  between.  At every place where a task waits, any other task may go on instead; only a lock that
  another task keeps cannot be taken.  `step?` lets one task take its next step, and what comes from
  outside (the time, the connector's answer, a server's reply) is given along and may be anything.
  So is the order in which the table of slots is listed: it is a map, and has none of its own.

  A state is reachable when some sequence of moves leads to it from a pool without connections and
  tasks that have not begun.
-/
import Polyshell.Session

namespace Polyshell.Pool

variable {H Q A α : Type}

/-- A task: between two questions, or in the middle of a pool call. -/
inductive Task (H Q A α : Type) where
  | between (d : Session H Q A α)
  | calling (pt : Point H) (next : PoolResult H → Session H Q A α)

/-- Where a task is in a pool call. -/
def Task.point? : Task H Q A α → Option (Point H)
  | .between _ => none
  | .calling pt _ => some pt

/-- The lock that a task keeps. -/
def Task.holds (t : Task H Q A α) : Option Lock := t.point?.bind Point.holds

/-- The outcome of a task that has ended. -/
def Task.outcome? : Task H Q A α → Option α
  | .between (.done x) => some x
  | _ => none

/-- Something that happened. -/
inductive Event (H Q : Type) where
  | called (c : PoolCall H)
  | returned (r : PoolResult H)
  /-- A slot was made for a key. -/
  | made (k : PoolKey) (i : Nat)
  | connecting (k target : PoolKey)
  | opened (k target : PoolKey) (h : H)
  /-- An acquisition has its handle. -/
  | acquired (k : PoolKey) (h : H)
  | replaced (k : PoolKey) (h previous : H)
  /-- A connection was taken out of a slot that was given up. -/
  | evicted (k : PoolKey) (h : H)
  | closing (h : H)
  | sent (h : H) (q : Q)

/-- Tasks at work on a pool. -/
structure Concert (H Q A α : Type) where
  pool : Pool H
  tasks : List (Task H Q A α)
  /-- What happened, by which task, the latest first. -/
  history : List (Nat × Event H Q)

/-- A move: a task's turn, and what comes from outside to it. -/
structure Move (H A : Type) where
  task : Nat
  now : Nat
  got : Attempt H
  reply : A
  /-- How the table is listed meanwhile, if that is an order of it. -/
  order : List (PoolKey × Nat)

/-- The pool with its table in another order. -/
def relist (p : Pool H) (order : List (PoolKey × Nat)) : Pool H :=
  if order.Perm p.links then { p with links := order } else p

namespace Concert

/-- Whether a task other than `t` keeps a lock. -/
def keeps (m : Concert H Q A α) (t : Nat) (l : Lock) : Bool :=
  (m.tasks.zipIdx).any fun x => x.2 ≠ t && x.1.holds = some l

/-- The state with a task moved on. -/
def put (m : Concert H Q A α) (t : Nat) (task : Task H Q A α) (events : List (Event H Q)) :
    Concert H Q A α :=
  { m with tasks := m.tasks.set t task, history := events.map (fun e => (t, e)) ++ m.history }

/-- What a section over a pool `p` brought about, between one point and the next; the latest
    first. -/
def ended (p : Pool H) (before after : Point H) : List (Event H Q) :=
  match before, after with
  | .link k, .enter _ i => if (p.slotOf? k).isNone then [.made k i] else []
  | .enter k _, .done (.handle (.ok h)) => [.acquired k h]
  | .connect k _ target _, .done (.handle (.ok h)) => [.acquired k h, .opened k target h]
  | .swap k _ h, .done (.handle (.ok previous)) => [.replaced k h previous]
  | .unlink k _ _, .close _ h _ => [.evicted k h]
  | _, _ => []

/-- What begins when a call comes to a point. -/
def begun : Point H → List (Event H Q)
  | .connect k _ target _ => [.connecting k target]
  | .close _ h _ => [.closing h]
  | _ => []

/-- What is noted when a call goes from one point to the next. -/
def events (p : Pool H) (before after : Point H) : List (Event H Q) :=
  begun after ++ ended p before after

/-- Runs the section of a call. -/
def section? (m : Concert H Q A α) (mv : Move H A) (pt : Point H)
    (next : PoolResult H → Session H Q A α) : Concert H Q A α :=
  let listed := m.pool.relist mv.order
  let moved := listed.advance mv.now mv.got pt
  { m with pool := moved.1 }.put mv.task (.calling moved.2 next) (events listed pt moved.2)

/-- One step of a task; nothing when it has ended or must wait for a lock. -/
def step? (m : Concert H Q A α) (mv : Move H A) : Option (Concert H Q A α) :=
  match m.tasks[mv.task]? with
  | none => none
  | some (.between (.done _)) => none
  | some (.between (.ask (.pool c) next)) =>
    some (m.put mv.task (.calling (.start c) next) [.called c])
  | some (.between (.ask (.server h q) next)) =>
    some (m.put mv.task (.between (next mv.reply)) [.sent h q])
  | some (.calling pt next) =>
    match pt.waits m.pool.settings with
    | .ended r => some (m.put mv.task (.between (next r)) [.returned r])
    | .lock l => if m.keeps mv.task l then none else some (m.section? mv pt next)
    | _ => some (m.section? mv pt next)

/-- Tasks that have not begun, with a pool without connections. -/
def start (settings : PoolSettings) (works : List (Session H Q A α)) : Concert H Q A α :=
  ⟨Pool.empty settings, works.map .between, []⟩

/-- The state behind a sequence of moves. -/
def play? (m : Concert H Q A α) : List (Move H A) → Option (Concert H Q A α)
  | [] => some m
  | mv :: mvs => (m.step? mv).bind fun m' => m'.play? mvs

/-- The states that tasks can come to. -/
def Reachable (settings : PoolSettings) (works : List (Session H Q A α)) (m : Concert H Q A α) :
    Prop :=
  ∃ mvs, (start settings works).play? mvs = some m

/-- Whether all tasks have ended. -/
def isOver (m : Concert H Q A α) : Bool := m.tasks.all fun t => t.outcome?.isSome

theorem play?_append (m : Concert H Q A α) (mvs mvs' : List (Move H A)) :
    m.play? (mvs ++ mvs') = (m.play? mvs).bind fun m' => m'.play? mvs' := by
  induction mvs generalizing m with
  | nil => rfl
  | cons mv mvs ih =>
    simp only [List.cons_append, play?]
    cases m.step? mv with
    | none => rfl
    | some m' => exact ih m'

end Concert
end Polyshell.Pool
