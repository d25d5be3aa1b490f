/-
  Running a pool on a virtual clock.

  A script is carried out by a main thread; other threads are started by it.  All of them take turns
  on one processor: a thread runs until it must wait, and the clock stands still meanwhile.

  * Threads that can go on form a queue.  When it is empty, the main thread goes on if it can; if it
    cannot, the clock jumps to the next instant that somebody waits for.  What is due then becomes
    ready in the order in which it was begun, and the main thread goes first.
  * A lock that is given back goes to whoever has waited for it longest.
  * A pause of no length is none.

  The connector is scripted: `Reaction` says how long a call takes, and how it ends, if it does.  The
  sections of the calls are those of `Pool.advance`; this file only decides whose turn it is.
-/
import Polyshell.Pool.Call

namespace Polyshell.Pool.Simulation

variable {H : Type}

/-! ## Scripts -/

/-- How a call of the connector goes: after a delay it ends, or it never does. -/
structure Reaction (H : Type) where
  delay : Nat
  outcome : Option (Except ShellError H)

/-- One thing that a thread does. -/
inductive Act (H : Type) where
  | call (c : PoolCall H)
  /-- Closes what is idle some time from now. -/
  | sweepIn (millis : Nat)
  | sleep (millis : Nat)
  | startSweeper
  /-- Counts the sweepers that have ended, after all others had their turn. -/
  | countEnded
  /-- Does nothing. -/
  | rest

/-- A step of a script: one thing, or several at the same time. -/
inductive Stage (H : Type) where
  | one (a : Act H)
  | parallel (acts : List (Act H))

/-- What a step led to. -/
structure Report (H : Type) where
  /-- The answers, each with the time at which it came. -/
  answers : List (PoolResult H × Nat)
  /-- The number of live connections. -/
  live : Nat
  /-- How often the connector was called up to here. -/
  connects : Nat
  /-- The keys that it was called with during the step. -/
  opened : List PoolKey
  /-- The handles that were closed during the step. -/
  closed : List H
  time : Nat

/-! ## Threads -/

/-- What a thread is for. -/
inductive Role where
  | act
  /-- A sweeper, and when its next sweep is due. -/
  | sweeper (due : Nat)
deriving DecidableEq

/-- Where a thread is. -/
inductive Phase (H : Type) where
  | fresh (a : Act H)
  | freshSweeper
  /-- In a pool call; with the connector's answer while that is on its way. -/
  | calling (pt : Point H) (got : Attempt H)
  | asleep
  /-- A thread that let all others go first. -/
  | yielded
  /-- A sweeper between two sweeps. -/
  | ticking
  | ended (r : PoolResult H) (time : Nat)

/-- A thread. -/
structure Thread (H : Type) where
  role : Role
  phase : Phase H

/-- The lock that a thread keeps. -/
def Thread.holds (t : Thread H) : Option Lock :=
  match t.phase with
  | .calling pt _ => pt.holds
  | _ => none

/-- What the main thread is about. -/
inductive Agenda (H : Type) where
  | next
  | acting
  | joining (ids : List Nat)
  /-- Counting the live connections behind a step. -/
  | counting (answers : List (PoolResult H × Nat))

/-- The whole of it.  Thread 0 is the main thread. -/
structure World (H : Type) where
  pool : Pool H
  clock : Nat
  threads : List (Thread H)
  ready : List Nat
  mainReady : Bool
  /-- Threads that let the others go first. -/
  deferred : List Nat
  /-- Who waits for which lock, the longest first. -/
  waiting : List (Lock × Nat)
  /-- Who waits until when, in the order in which it was begun. -/
  timers : List (Nat × Nat)
  connects : Nat
  opened : List PoolKey
  closed : List H
  stages : List (Stage H)
  agenda : Agenda H
  reports : List (Report H)

namespace World

/-- The phase of a thread. -/
def phase (w : World H) (id : Nat) : Phase H :=
  match w.threads[id]? with
  | some t => t.phase
  | none => .asleep

/-- The role of a thread. -/
def role (w : World H) (id : Nat) : Role :=
  match w.threads[id]? with
  | some t => t.role
  | none => .act

/-- Puts a thread into a phase. -/
def setPhase (w : World H) (id : Nat) (ph : Phase H) : World H :=
  { w with threads := w.threads.modify id fun t => { t with phase := ph } }

/-- Makes a thread ready. -/
def wake (w : World H) (id : Nat) : World H :=
  if id = 0 then { w with mainReady := true }
  else if w.ready.contains id then w
  else { w with ready := w.ready ++ [id] }

/-- Has a thread wait for an instant. -/
def setTimer (w : World H) (id : Nat) (due : Nat) : World H :=
  { w with timers := w.timers ++ [(due, id)] }

/-- Has a thread wait for no instant any more. -/
def dropTimer (w : World H) (id : Nat) : World H :=
  { w with timers := w.timers.filter fun t => t.2 ≠ id }

/-- Starts a thread. -/
def spawn (w : World H) (t : Thread H) : World H :=
  { w with threads := w.threads ++ [t] }.wake w.threads.length

/-- Ends a thread.  The main thread hears of it if it waits for that. -/
def finish (w : World H) (id : Nat) (r : PoolResult H) : World H :=
  let w := w.setPhase id (.ended r w.clock)
  match w.agenda with
  | .joining ids => if ids.contains id then w.wake 0 else w
  | _ => w

/-- How many sweepers have ended. -/
def endedSweepers (w : World H) : Nat :=
  (w.threads.filter fun t =>
    match t.role, t.phase with
    | .sweeper _, .ended _ _ => true
    | _, _ => false).length

/-! ## Locks -/

/-- Whether a thread may take a lock: nobody keeps it, and nobody has waited longer. -/
def mayTake (w : World H) (id : Nat) (l : Lock) : Bool :=
  !(w.threads.any fun t => t.holds = some l) &&
    match w.waiting.find? fun x => x.1 = l with
    | some (_, first) => first = id
    | none => true

/-- Puts a thread into the queue of a lock. -/
def queue (w : World H) (id : Nat) (l : Lock) : World H :=
  if w.waiting.any fun x => x.1 = l && x.2 = id then w
  else { w with waiting := w.waiting ++ [(l, id)] }

/-- Takes a thread out of the queue of a lock. -/
def unqueue (w : World H) (id : Nat) (l : Lock) : World H :=
  { w with waiting := w.waiting.filter fun x => !(x.1 = l && x.2 = id) }

/-- Gives a lock back: whoever has waited longest for it becomes ready. -/
def release (w : World H) (l : Lock) : World H :=
  match w.waiting.find? fun x => x.1 = l with
  | some (_, first) => w.wake first
  | none => w

/-- The locks that a call gives back between two points: the one that it was let in with, and the
    one that it kept before, unless it keeps them on. -/
def released (entered : Option Lock) (before after : Point H) : List Lock :=
  (entered.toList ++ before.holds.toList).filter fun l => after.holds ≠ some l

/-! ## Sections -/

/-- How an attempt ends that is given `timeout`, and after which time. -/
def settle (timeout : Nat) (r : Reaction H) : Nat × Attempt H :=
  match r.outcome with
  | none => (timeout, .timedOut)
  | some outcome =>
    if r.delay ≤ timeout then
      (r.delay, match outcome with | .ok h => .opened h | .error e => .failed e)
    else (timeout, .timedOut)

/-- Wakes the sweepers when the pool was shut down. -/
def tellSweepers (w : World H) : World H :=
  (List.range w.threads.length).foldl
    (fun w id => match w.phase id with | .ticking => w.wake id | _ => w) w

/-- Runs the section behind a point of a thread's call. -/
def runSection (w : World H) (id : Nat) (entered : Option Lock) (pt : Point H) (got : Attempt H) :
    World H × Point H :=
  let (pool, after) := w.pool.advance w.clock got pt
  let shut := pool.closed && !w.pool.closed
  let w := { w with pool := pool }.setPhase id (.calling after .timedOut)
  let w := match entered with
    | some l => w.unqueue id l
    | none => w
  let w := (released entered pt after).foldl release w
  (if shut then w.tellSweepers else w, after)

/-- The next section of a call: the state behind it and the next point, or the state in which the
    thread waits. -/
def callStep (connector : Nat → PoolKey → Reaction H) (w : World H) (id : Nat) (woken : Bool)
    (pt : Point H) (got : Attempt H) : World H × Option (Point H) :=
  match pt.waits w.pool.settings with
  | .nothing =>
    let (w, pt) := w.runSection id none pt got
    (w, some pt)
  | .lock l =>
    if w.mayTake id l then
      let (w, pt) := w.runSection id (some l) pt got
      (w, some pt)
    else (w.queue id l, none)
  | .connector target =>
    if woken then
      let (w, pt) := w.runSection id none pt got
      (w, some pt)
    else
      let (delay, outcome) := settle w.pool.settings.connectTimeout (connector w.connects target)
      let w := { w with connects := w.connects + 1, opened := w.opened ++ [target] }
      if delay = 0 then
        let (w, pt) := w.runSection id none pt outcome
        (w, some pt)
      else ((w.setPhase id (.calling pt outcome)).setTimer id (w.clock + delay), none)
  | .pause millis =>
    if woken || millis = 0 then
      let (w, pt) := w.runSection id none pt got
      (w, some pt)
    else (w.setTimer id (w.clock + millis), none)
  | .closing h =>
    let w := { w with closed := w.closed ++ [h] }
    let (w, pt) := w.runSection id none pt got
    (w, some pt)
  | .ended _ => (w, none)

/-- A sweeper between two sweeps: it ends with the pool, sweeps when that is due, or waits. -/
def tick (w : World H) (id due : Nat) : World H × Bool :=
  if w.pool.closed then ((w.dropTimer id).finish id .nothing, false)
  else if due ≤ w.clock then
    let role := Role.sweeper (due + w.pool.settings.sweepInterval)
    let start : Phase H := .calling (.start (.sweepAt w.clock)) .timedOut
    ({ w with threads := w.threads.modify id fun _ => ⟨role, start⟩ }.dropTimer id, true)
  else
    let w := w.setPhase id .ticking
    (if w.timers.any fun t => t.2 = id then w else w.setTimer id due, false)

/-- Begins what a thread does; says whether it can go on at once. -/
def beginAct (w : World H) (id : Nat) : Act H → World H × Bool
  | .call c => (w.setPhase id (.calling (.start c) .timedOut), true)
  | .sweepIn millis =>
    (w.setPhase id (.calling (.start (.sweepAt (w.clock + millis))) .timedOut), true)
  | .sleep millis =>
    if millis = 0 then (w.finish id .nothing, false)
    else ((w.setPhase id .asleep).setTimer id (w.clock + millis), false)
  | .startSweeper => ((w.spawn ⟨.sweeper 0, .freshSweeper⟩).finish id .nothing, false)
  | .countEnded => ({ w.setPhase id .yielded with deferred := w.deferred ++ [id] }, false)
  | .rest => (w.finish id .nothing, false)

/-- Runs a thread until it waits or ends.  `woken` says whether what it waited for has come. -/
def run (connector : Nat → PoolKey → Reaction H) : (fuel : Nat) → World H → Nat → Bool → World H
  | 0, w, _, _ => w
  | fuel + 1, w, id, woken =>
    match w.phase id with
    | .fresh a =>
      let (w, goesOn) := w.beginAct id a
      if goesOn then run connector fuel w id false else w
    | .freshSweeper =>
      if w.pool.settings.sweepInterval = 0 then w.finish id .nothing
      else
        let due := w.clock + w.pool.settings.sweepInterval
        let w := { w with threads := w.threads.modify id fun _ => ⟨.sweeper due, .ticking⟩ }
        let (w, goesOn) := w.tick id due
        if goesOn then run connector fuel w id false else w
    | .ticking =>
      match w.role id with
      | .sweeper due =>
        let (w, goesOn) := w.tick id due
        if goesOn then run connector fuel w id false else w
      | .act => w
    | .asleep => w.finish id .nothing
    | .yielded => w.finish id (.number w.endedSweepers)
    | .calling pt got =>
      match pt.waits w.pool.settings with
      | .ended r =>
        match w.role id with
        | .act => w.finish id r
        | .sweeper due =>
          let (w, goesOn) := w.tick id due
          if goesOn then run connector fuel w id false else w
      | _ =>
        match w.callStep connector id woken pt got with
        | (w, some _) => run connector fuel w id false
        | (w, none) => w
    | .ended _ _ => w

/-! ## The main thread -/

/-- The answer of a thread that has ended. -/
def answer? (w : World H) (id : Nat) : Option (PoolResult H × Nat) :=
  match w.phase id with
  | .ended r t => some (r, t)
  | _ => none

/-- Goes on to count the live connections. -/
def countLive (w : World H) (answers : List (PoolResult H × Nat)) : World H :=
  { w.setPhase 0 (.fresh (.call .size)) with agenda := .counting answers }

/-- Ends a step with its report. -/
def report (w : World H) (answers : List (PoolResult H × Nat)) (live : Nat) : World H :=
  { w with
    reports := w.reports ++ [⟨answers, live, w.connects, w.opened, w.closed, w.clock⟩]
    opened := []
    closed := []
    agenda := .next }

/-- Starts threads for things that are done at the same time; gives their numbers. -/
def spawnAll (w : World H) (acts : List (Act H)) : World H × List Nat :=
  (acts.foldl (fun w a => w.spawn ⟨.act, .fresh a⟩) w,
    (List.range acts.length).map (· + w.threads.length))

/-- Runs the main thread until it waits; says whether the script is at its end. -/
def runMain (connector : Nat → PoolKey → Reaction H) : (fuel : Nat) → World H → World H × Bool
  | 0, w => (w, true)
  | fuel + 1, w =>
    match w.agenda with
    | .next =>
      match w.stages with
      | [] => (w, true)
      | .one a :: rest =>
        runMain connector fuel
          ({ w with stages := rest, agenda := .acting }.setPhase 0 (.fresh a))
      | .parallel acts :: rest =>
        let (w, ids) := { w with stages := rest }.spawnAll acts
        runMain connector fuel { w with agenda := .joining ids }
    | .acting =>
      let w := w.run connector fuel 0 true
      match w.answer? 0 with
      | some r => runMain connector fuel (w.countLive [r])
      | none => (w, false)
    | .joining ids =>
      match ids.mapM w.answer? with
      | some rs => runMain connector fuel (w.countLive rs)
      | none => (w, false)
    | .counting answers =>
      let w := w.run connector fuel 0 true
      match w.answer? 0 with
      | some (r, _) => runMain connector fuel (w.report answers r.toNumber)
      | none => (w, false)

/-- Gives all threads in the queue their turn. -/
def drain (connector : Nat → PoolKey → Reaction H) : (fuel : Nat) → World H → World H
  | 0, w => w
  | fuel + 1, w =>
    match w.ready with
    | [] => w
    | id :: rest => drain connector fuel (run connector fuel { w with ready := rest } id true)

/-- Lets the threads go on that let the others go first. -/
def wakeDeferred (w : World H) : World H := w.deferred.foldl wake { w with deferred := [] }

/-- Moves the clock to the next instant that somebody waits for; nothing when nobody does. -/
def jump? (w : World H) : Option (World H) :=
  match w.timers.map (·.1) with
  | [] => none
  | t :: ts =>
    let due := ts.foldl min t
    let (now, later) := w.timers.partition fun x => x.1 = due
    some (now.foldl (fun w x => w.wake x.2) { w with clock := due, timers := later })

/-- Takes turns until the script is at its end, or nothing can happen any more. -/
def rounds (connector : Nat → PoolKey → Reaction H) : (fuel : Nat) → World H → World H
  | 0, w => w
  | fuel + 1, w =>
    let (w, finished) :=
      if w.mainReady then runMain connector fuel { w with mainReady := false } else (w, false)
    if finished then w
    else
      let w := (drain connector fuel w).wakeDeferred
      if w.mainReady || !w.ready.isEmpty then rounds connector fuel w
      else match w.jump? with
        | some w => rounds connector fuel w
        | none => w

/-- The beginning of a script. -/
def start (settings : PoolSettings) (stages : List (Stage H)) : World H where
  pool := Pool.empty settings
  clock := 0
  threads := [⟨.act, .asleep⟩]
  ready := []
  mainReady := true
  deferred := []
  waiting := []
  timers := []
  connects := 0
  opened := []
  closed := []
  stages := stages
  agenda := .next
  reports := []

end World

/-- More turns than any script of reasonable length takes. -/
def patience : Nat := 1000000000

/-- The reports of a script. -/
def play (settings : PoolSettings) (connector : Nat → PoolKey → Reaction H)
    (stages : List (Stage H)) : List (Report H) :=
  (World.rounds connector patience (World.start settings stages)).reports

end Polyshell.Pool.Simulation
