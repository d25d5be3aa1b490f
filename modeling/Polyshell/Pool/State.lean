/-
  The state of a pool of connections.

  A pool keeps one connection for each key.  The connections lie in slots; a table (`links`) says
  which slot belongs to a key now.  A slot that was given up is `retired`: it is taken out of the
  table and never used again, so that whoever still waits for it looks its key up once more.  Slots
  are numbered in the order in which they were made, and a number is never given a second time.

  Beside the connections a pool remembers, for each key, the database that was selected last; this
  outlives the connection and decides where the next one is opened (`target`).

  Every function here is one uninterrupted section of a pool operation.  `Pool.Call` says how the
  operations are put together from them, and under which locks they run.
-/
import Polyshell.Pool.Key
import Polyshell.Config

namespace Polyshell

/-! ## Types -/

/-- The timing of a pool, in milliseconds. -/
structure PoolSettings where
  /-- For how long a connection may lie unused. -/
  idleTtl : Nat
  /-- How long it is from one sweep to the next. -/
  sweepInterval : Nat
  /-- For how long one attempt to connect may last. -/
  connectTimeout : Nat
  /-- How often connecting is attempted; zero means once. -/
  retryAttempts : Nat
  /-- The pause behind the first attempt; behind the n-th it is n times as long. -/
  retryBackoff : Nat
deriving DecidableEq, Repr, Inhabited

namespace PoolSettings

/-- The timing that a configuration asks for. -/
def ofConfig (c : PoolConfig) : PoolSettings :=
  ⟨c.idleTtl * 1000, c.sweepInterval * 1000, c.connectTimeout * 1000, c.attempts, 250⟩

/-- How often connecting is attempted in fact. -/
def attempts (s : PoolSettings) : Nat := max 1 s.retryAttempts

/-- The pause behind an attempt; attempts count from 1. -/
def pause (s : PoolSettings) (attempt : Nat) : Nat := s.retryBackoff * attempt

end PoolSettings

/-- A live connection, and when it was used last. -/
structure PoolEntry (H : Type) where
  handle : H
  lastUsed : Nat
deriving DecidableEq, Inhabited

/-- Whether an entry was not used for longer than `ttl`.  One that was used later than `now` was
    not. -/
def PoolEntry.isIdle {H : Type} (e : PoolEntry H) (now ttl : Nat) : Bool := ttl < now - e.lastUsed

/-- A place for the connection of one key. -/
structure PoolSlot (H : Type) where
  entry : Option (PoolEntry H)
  retired : Bool
deriving DecidableEq

/-- A pool of connections. -/
structure Pool (H : Type) where
  settings : PoolSettings
  /-- All slots that were ever made. -/
  slots : List (PoolSlot H)
  /-- The slot of each key. -/
  links : List (PoolKey × Nat)
  /-- The database of each key that was selected last. -/
  selected : List (PoolKey × String)
  /-- Whether the pool was shut down. -/
  closed : Bool

namespace Pool

variable {H : Type}

/-- A pool without connections. -/
def empty (settings : PoolSettings) : Pool H := ⟨settings, [], [], [], false⟩

/-! ## Slots -/

/-- A slot that was just made. -/
def freshSlot : PoolSlot H := ⟨none, false⟩

/-- A slot; junk (a retired one) for a number that was not given yet. -/
def slot (p : Pool H) (i : Nat) : PoolSlot H := p.slots[i]?.getD ⟨none, true⟩

/-- The connection in a slot. -/
def entryAt? (p : Pool H) (i : Nat) : Option (PoolEntry H) := (p.slot i).entry

/-- Whether a slot was given up. -/
def isRetired (p : Pool H) (i : Nat) : Bool := (p.slot i).retired

/-- The slot of a key. -/
def slotOf? (p : Pool H) (k : PoolKey) : Option Nat := (p.links.find? fun l => l.1 = k).map (·.2)

/-- Changes a slot. -/
def modify (p : Pool H) (i : Nat) (f : PoolSlot H → PoolSlot H) : Pool H :=
  { p with slots := p.slots.modify i f }

/-- The slot of a key, which is made if there is none. -/
def link (p : Pool H) (k : PoolKey) : Nat × Pool H :=
  match p.slotOf? k with
  | some i => (i, p)
  | none =>
    (p.slots.length,
      { p with slots := p.slots ++ [freshSlot], links := p.links ++ [(k, p.slots.length)] })

/-- Puts a connection into a slot. -/
def store (p : Pool H) (i : Nat) (h : H) (now : Nat) : Pool H :=
  p.modify i fun s => { s with entry := some ⟨h, now⟩ }

/-- Notes that the connection in a slot is used now. -/
def touch (p : Pool H) (i : Nat) (now : Nat) : Pool H :=
  p.modify i fun s => { s with entry := s.entry.map fun e => { e with lastUsed := now } }

/-- Gives a slot up. -/
def retire (p : Pool H) (i : Nat) : Pool H := p.modify i fun s => { s with retired := true }

/-- Takes the connection out of a slot. -/
def clear (p : Pool H) (i : Nat) : Pool H := p.modify i fun s => { s with entry := none }

/-- Takes a slot out of the table, if it is still that of the key. -/
def unlink (p : Pool H) (k : PoolKey) (i : Nat) : Pool H :=
  { p with links := p.links.filter fun l => !(l.1 = k && l.2 = i) }

/-- Whether a slot holds a connection that can be used. -/
def isLive (p : Pool H) (i : Nat) : Bool := !p.isRetired i && (p.entryAt? i).isSome

/-! ## Selected databases -/

/-- The database that was selected for a key. -/
def selection? (p : Pool H) (k : PoolKey) : Option String :=
  (p.selected.find? fun x => x.1 = k).map (·.2)

/-- Notes that a database was selected for a key. -/
def select (p : Pool H) (k : PoolKey) (database : String) : Pool H :=
  { p with selected := (k, database) :: p.selected.filter fun x => !(x.1 = k) }

/-- What the next connection of a key is opened with: the key itself, or the key with the database
    that was selected. -/
def target (p : Pool H) (k : PoolKey) : PoolKey :=
  match p.selection? k with
  | some d => { k with database := some d }
  | none => k

/-! ## Giving connections up -/

/-- Which keys an operation is about. -/
inductive Scope where
  | key (k : PoolKey)
  | session (id : String)
  | all
deriving DecidableEq

/-- Whether a key is one of them. -/
def Scope.covers (s : Scope) (k : PoolKey) : Bool :=
  match s with
  | .key k' => k = k'
  | .session id => k.session = some id
  | .all => true

/-- Forgets what was selected for some keys. -/
def forget (p : Pool H) (s : Scope) : Pool H :=
  { p with selected := p.selected.filter fun x => !s.covers x.1 }

/-- The slots of some keys. -/
def linksIn (p : Pool H) (s : Scope) : List (PoolKey × Nat) := p.links.filter fun l => s.covers l.1

/-- Which connections an operation gives up. -/
inductive Eviction where
  /-- Those that are idle at an instant; slots without a connection as well. -/
  | idleAt (now : Nat)
  /-- Those of some keys. -/
  | of (scope : Scope)
deriving DecidableEq

/-- The keys that an eviction looks at. -/
def Eviction.scope : Eviction → Scope
  | .idleAt _ => .all
  | .of s => s

/-- Whether an eviction gives a slot up. -/
def evicts (p : Pool H) (e : Eviction) (i : Nat) : Bool :=
  match e with
  | .of _ => true
  | .idleAt now =>
    match p.entryAt? i with
    | some x => x.isIdle now p.settings.idleTtl
    | none => true

/-- Shuts the pool down: no connection is opened or handed out from now on. -/
def shut (p : Pool H) : Pool H := { p with closed := true }

/-! ## Laws of the sections -/

theorem slotOf?_link (p : Pool H) (k : PoolKey) : (p.link k).2.slotOf? k = some (p.link k).1 := by
  unfold link
  split
  · assumption
  · rename_i h
    have hn : ∀ l ∈ p.links, ¬ l.1 = k := by
      intro l hl he
      simp only [slotOf?, Option.map_eq_none_iff, List.find?_eq_none] at h
      simpa [he] using h l hl
    have hf : p.links.find? (fun l => decide (l.1 = k)) = none := by
      simpa [List.find?_eq_none] using fun a b hab => hn (a, b) hab
    simp [slotOf?, List.find?_append, hf]

theorem selection?_select (p : Pool H) (k : PoolKey) (d : String) :
    (p.select k d).selection? k = some d := by
  simp [select, selection?]

theorem selection?_select_of_ne (p : Pool H) {k k' : PoolKey} (d : String) (h : k' ≠ k) :
    (p.select k d).selection? k' = p.selection? k' := by
  have hk : ¬ k = k' := fun e => h e.symm
  simp only [select, selection?, List.find?_cons, hk, decide_false]
  congr 1
  induction p.selected with
  | nil => rfl
  | cons x r ih =>
    by_cases hx : x.1 = k
    · simp [hx, hk, ih]
    · by_cases hx' : x.1 = k'
      · simp [hx', h]
      · simp [hx, hx', ih]

end Pool
end Polyshell
