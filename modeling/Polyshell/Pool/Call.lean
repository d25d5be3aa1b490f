/-
  The operations of a pool, step by step.

  A call runs in sections.  Between two sections it waits: for a lock, for the connector, for a
  pause to end, or for a connection to be closed.  A `Point` is such a place between two sections
  with all that the call knows there; `Point.waits` says what it waits for, `Point.holds` which
  lock it keeps meanwhile, and `advance` runs the next section.

  There is one lock for the table of slots, one for the selected databases, and one for each slot.
  The locks of the table and of the databases are given back at the end of the section that needed
  them.  The lock of a slot is kept while its connection is opened or closed; this is what makes
  several callers of one key wait for a single attempt to connect.
-/
import Polyshell.Pool.State

namespace Polyshell

/-! ## Calls and their results -/

/-- A pool operation. -/
inductive PoolCall (H : Type) where
  /-- The connection of a key, which is opened if there is none. -/
  | acquire (k : PoolKey)
  /-- Puts another handle in place of the one that is pooled. -/
  | replace (k : PoolKey) (h : H)
  | select (k : PoolKey) (database : String)
  | selected (k : PoolKey)
  /-- Closes what is idle at an instant. -/
  | sweepAt (now : Nat)
  | remove (k : PoolKey)
  | removeSession (id : String)
  | shutdown
  /-- The number of live connections. -/
  | size
deriving DecidableEq

/-- What an operation answers. -/
inductive PoolResult (H : Type) where
  | handle (h : Except ShellError H)
  | database (d : Option String)
  | number (n : Nat)
  | truth (b : Bool)
  | nothing

/-- The handle among the results; the other results of operations that give none. -/
def PoolResult.toHandle {H : Type} : PoolResult H → Except ShellError H
  | .handle h => h
  | _ => .error (.connection .poolClosed)

/-- The number among the results. -/
def PoolResult.toNumber {H : Type} : PoolResult H → Nat
  | .number n => n
  | _ => 0

/-- How one attempt to connect ends. -/
inductive Attempt (H : Type) where
  | opened (h : H)
  | failed (e : ShellError)
  | timedOut

/-! ## Points -/

namespace Pool

/-- What is answered when connections were closed. -/
inductive Account where
  | theNumber
  | whetherAny
  | nothing
deriving DecidableEq

/-- The answer for a number of closed connections. -/
def Account.result {H : Type} (a : Account) (closed : Nat) : PoolResult H :=
  match a with
  | .theNumber => .number closed
  | .whetherAny => .truth (closed ≠ 0)
  | .nothing => .nothing

/-- An eviction under way: the slots still to be looked at, and how many connections it closed. -/
structure Round where
  eviction : Eviction
  account : Account
  rest : List (PoolKey × Nat)
  closed : Nat
deriving DecidableEq

/-- A place between two sections of a call. -/
inductive Point (H : Type) where
  | start (c : PoolCall H)
  /-- `acquire` looks its slot up. -/
  | link (k : PoolKey)
  /-- `acquire` goes into the slot. -/
  | enter (k : PoolKey) (i : Nat)
  /-- `acquire` asks which database was selected. -/
  | aim (k : PoolKey) (i : Nat)
  /-- `acquire` has called the connector. -/
  | connect (k : PoolKey) (i : Nat) (target : PoolKey) (attempt : Nat)
  /-- `acquire` pauses behind an attempt that failed. -/
  | pause (k : PoolKey) (i : Nat) (target : PoolKey) (attempt : Nat)
  /-- `replace` looks its slot up. -/
  | find (k : PoolKey) (h : H)
  /-- `replace` goes into the slot. -/
  | swap (k : PoolKey) (i : Nat) (h : H)
  | note (k : PoolKey) (database : String)
  | recall (k : PoolKey)
  /-- An operation that gives keys up forgets their databases first. -/
  | forget (scope : Scope) (account : Account)
  /-- An eviction lists the slots that it will look at. -/
  | survey (eviction : Eviction) (account : Account)
  /-- An eviction goes into a slot. -/
  | visit (k : PoolKey) (i : Nat) (round : Round)
  /-- An eviction takes a slot that it gave up out of the table. -/
  | unlink (k : PoolKey) (i : Nat) (round : Round)
  /-- An eviction has a connection closed. -/
  | close (i : Nat) (h : H) (round : Round)
  | census
  /-- `size` looks into a slot. -/
  | count (i : Nat) (rest : List Nat) (live : Nat)
  | done (r : PoolResult H)

/-- A lock. -/
inductive Lock where
  /-- The table of slots. -/
  | table
  /-- The selected databases. -/
  | databases
  | slot (i : Nat)
deriving DecidableEq, Repr

/-- What a call waits for. -/
inductive Wait (H : Type) where
  | nothing
  | lock (l : Lock)
  | connector (target : PoolKey)
  | pause (millis : Nat)
  | closing (h : H)
  /-- The call has ended. -/
  | ended (r : PoolResult H)

variable {H : Type}

/-- What the call waits for at a point. -/
def Point.waits (settings : PoolSettings) : Point H → Wait H
  | .start _ => .nothing
  | .link _ => .lock .table
  | .enter _ i => .lock (.slot i)
  | .aim _ _ => .lock .databases
  | .connect _ _ target _ => .connector target
  | .pause _ _ _ attempt => .pause (settings.pause attempt)
  | .find _ _ => .lock .table
  | .swap _ i _ => .lock (.slot i)
  | .note _ _ => .lock .databases
  | .recall _ => .lock .databases
  | .forget _ _ => .lock .databases
  | .survey _ _ => .lock .table
  | .visit _ i _ => .lock (.slot i)
  | .unlink _ _ _ => .lock .table
  | .close _ h _ => .closing h
  | .census => .lock .table
  | .count i _ _ => .lock (.slot i)
  | .done r => .ended r

/-- The lock that the call keeps at a point.  It is always that of one slot. -/
def Point.holds : Point H → Option Lock
  | .aim _ i => some (.slot i)
  | .connect _ i _ _ => some (.slot i)
  | .pause _ i _ _ => some (.slot i)
  | .unlink _ i _ => some (.slot i)
  | .close i _ _ => some (.slot i)
  | _ => none

/-! ## Sections -/

/-- Where an acquisition begins, and begins again when its slot was given up. -/
def beginAcquire (p : Pool H) (k : PoolKey) : Point H :=
  if p.closed then .done (.handle (.error (.connection .poolClosed))) else .link k

/-- The error of an operation that needs a live connection. -/
def notPooled (k : PoolKey) : ShellError := .connection (.notPooled k.display)

/-- The error of an attempt that took too long. -/
def timeout (settings : PoolSettings) (k : PoolKey) : ShellError :=
  .connection (.timeout k.display (settings.connectTimeout / 1000))

/-- Where a call goes from an attempt that failed. -/
def afterFailure (p : Pool H) (k : PoolKey) (i : Nat) (target : PoolKey) (attempt : Nat)
    (e : ShellError) : Point H :=
  if attempt < p.settings.attempts then .pause k i target attempt else .done (.handle (.error e))

/-- The next slot of an eviction, or its end. -/
def Round.next (r : Round) : Point H :=
  match r.rest with
  | [] => .done (r.account.result r.closed)
  | (k, i) :: rest => .visit k i { r with rest := rest }

/-- The next slot that is counted, or the count. -/
def countFrom (rest : List Nat) (live : Nat) : Point H :=
  match rest with
  | [] => .done (.number live)
  | i :: rest => .count i rest live

/-- The first section of a call. -/
def begin (p : Pool H) : PoolCall H → Pool H × Point H
  | .acquire k => (p, p.beginAcquire k)
  | .replace k h => (p, .find k h)
  | .select k d => (p, .note k d)
  | .selected k => (p, .recall k)
  | .sweepAt now => (p, .survey (.idleAt now) .theNumber)
  | .remove k => (p, .forget (.key k) .whetherAny)
  | .removeSession id => (p, .forget (.session id) .theNumber)
  | .shutdown => (p.shut, .forget .all .nothing)
  | .size => (p, .census)

/-- Runs the section behind a point, when what the call waits for has come: it has the lock, or the
    connector answered `got`. -/
def advance (p : Pool H) (now : Nat) (got : Attempt H) : Point H → Pool H × Point H
  | .start c => p.begin c
  | .link k => ((p.link k).2, .enter k (p.link k).1)
  | .enter k i =>
    if p.isRetired i then (p, p.beginAcquire k)
    else match p.entryAt? i with
      | some e => (p.touch i now, .done (.handle (.ok e.handle)))
      | none => (p, .aim k i)
  | .aim k i => (p, .connect k i (p.target k) 1)
  | .connect k i target attempt =>
    match got with
    | .opened h => (p.store i h now, .done (.handle (.ok h)))
    | .failed e => (p, p.afterFailure k i target attempt e)
    | .timedOut => (p, p.afterFailure k i target attempt (timeout p.settings k))
  | .pause k i target attempt => (p, .connect k i target (attempt + 1))
  | .find k h =>
    match p.slotOf? k with
    | some i => (p, .swap k i h)
    | none => (p, .done (.handle (.error (notPooled k))))
  | .swap k i h =>
    if p.isRetired i then (p, .done (.handle (.error (notPooled k))))
    else match p.entryAt? i with
      | some e => (p.store i h now, .done (.handle (.ok e.handle)))
      | none => (p, .done (.handle (.error (notPooled k))))
  | .note k d => (p.select k d, .done .nothing)
  | .recall k => (p, .done (.database (p.selection? k)))
  | .forget s a => (p.forget s, .survey (.of s) a)
  | .survey e a => (p, (Round.mk e a (p.linksIn e.scope) 0).next)
  | .visit k i r =>
    if p.isRetired i || !p.evicts r.eviction i then (p, r.next)
    else (p.retire i, .unlink k i r)
  | .unlink k i r =>
    match p.entryAt? i with
    | some e => ((p.unlink k i).clear i, .close i e.handle r)
    | none => (p.unlink k i, r.next)
  | .close _ _ r => (p, { r with closed := r.closed + 1 }.next)
  | .census => (p, countFrom (p.links.map (·.2)) 0)
  | .count i rest live => (p, countFrom rest (if p.isLive i then live + 1 else live))
  | .done r => (p, .done r)

/-- What a call does to the world outside the pool when it comes to a point. -/
inductive Effect (H : Type) where
  /-- Calls the connector. -/
  | connect (target : PoolKey)
  /-- Has a connection closed. -/
  | close (h : H)

/-- The effect of coming to a point. -/
def Point.effect? : Point H → Option (Effect H)
  | .connect _ _ target _ => some (.connect target)
  | .close _ h _ => some (.close h)
  | _ => none

/-- A call keeps no lock where it waits for the lock of a slot. -/
theorem Point.holds_eq_none_of_waits_slot {settings : PoolSettings} {pt : Point H} {i : Nat}
    (h : pt.waits settings = .lock (.slot i)) : pt.holds = none := by
  cases pt <;> simp_all [Point.waits, Point.holds]

end Pool
end Polyshell
