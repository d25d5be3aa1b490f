/-
  Pool operations that nothing else comes between.

  `perform` runs a call from its first section to its last: locks are free, the connector answers,
  pauses end, and connections are closed.  What lies outside the pool is a state of any kind
  (`Outside`), so a connector may answer differently every time.

  The number of sections is known before: `acquire` has four and two for each attempt, an operation
  that closes connections three for each slot it looks at.  `sections` bounds all of them.
-/
import Polyshell.Pool.Call

namespace Polyshell

/-- What a pool works with: a clock, a connector, and time that passes. -/
structure Outside (σ H : Type) where
  clock : σ → Nat
  connect : PoolKey → σ → Attempt H × σ
  pause : Nat → σ → σ
  close : H → σ → σ

/-- What comes of waiting: the connector's answer if it was called, and the world behind it. -/
def Outside.await {σ H : Type} (o : Outside σ H) : Pool.Wait H → σ → Attempt H × σ
  | .connector target, s => o.connect target s
  | .pause millis, s => (.timedOut, o.pause millis s)
  | .closing h, s => (.timedOut, o.close h s)
  | _, s => (.timedOut, s)

namespace Pool

variable {σ H : Type}

/-- Runs a call on from a point. -/
def drive (o : Outside σ H) : (fuel : Nat) → Pool H → Point H → σ → PoolResult H × Pool H × σ
  | 0, p, _, s => (.nothing, p, s)
  | fuel + 1, p, pt, s =>
    match pt.waits p.settings with
    | .ended r => (r, p, s)
    | w =>
      let came := o.await w s
      let moved := p.advance (o.clock came.2) came.1 pt
      drive o fuel moved.1 moved.2 came.2

/-- A bound on the number of sections of any call. -/
def sections (p : Pool H) : Nat := 8 + 2 * p.settings.attempts + 3 * p.links.length

/-- Runs a call. -/
def perform (o : Outside σ H) (p : Pool H) (c : PoolCall H) (s : σ) : PoolResult H × Pool H × σ :=
  drive o p.sections p (.start c) s

/-- Runs calls one after another; gives what each of them answered. -/
def performAll (o : Outside σ H) : Pool H → List (PoolCall H) → σ → List (PoolResult H) × Pool H × σ
  | p, [], s => ([], p, s)
  | p, c :: cs, s =>
    let (r, p, s) := p.perform o c s
    let (rs, p, s) := performAll o p cs s
    (r :: rs, p, s)

end Pool

end Polyshell
