/-
  Commands at work: dialogues with a pool and with servers.

  While a command is carried out it makes pool calls and sends requests over the handles that it
  gets.  `Session.run` holds the dialogue when nothing else comes between; `Pool.Interleaving` holds
  several of them at once.
-/
import Polyshell.Dialogue
import Polyshell.Pool.Operation

namespace Polyshell

/-- A question of a command: to the pool, or to the server behind a handle. -/
inductive Exchange (H Q : Type) where
  | pool (c : PoolCall H)
  | server (h : H) (q : Q)

/-- The answer to a question. -/
def Exchange.Answer {H Q : Type} (A : Type) : Exchange H Q → Type
  | .pool _ => PoolResult H
  | .server _ _ => A

/-- Work that uses a pool of handles in `H`, and sends requests in `Q` to servers that reply in
    `A`. -/
abbrev Session (H Q A α : Type) := Dialogue (Exchange H Q) (Exchange.Answer A) α

namespace Session

variable {H Q A α : Type}

/-- A pool operation. -/
def call (c : PoolCall H) : Session H Q A (PoolResult H) :=
  Dialogue.question (Exchange.pool c : Exchange H Q)

/-- The connection of a key. -/
def acquire (k : PoolKey) : Session H Q A (Except ShellError H) :=
  (call (.acquire k)).bind fun r => .done r.toHandle

/-- Another handle in place of the one that is pooled. -/
def replace (k : PoolKey) (h : H) : Session H Q A (Except ShellError H) :=
  (call (.replace k h)).bind fun r => .done r.toHandle

/-- Notes the database that was selected. -/
def select (k : PoolKey) (database : String) : Session H Q A Unit :=
  (call (.select k database)).bind fun _ => .done ()

/-- A request to the server behind a handle. -/
def send (h : H) (q : Q) : Session H Q A A := Dialogue.question (Exchange.server h q : Exchange H Q)

/-- What a session is held with: what a pool needs, and servers. -/
structure Party (σ H Q A : Type) extends Outside σ H where
  send : H → Q → σ → A × σ

/-- Answers one question. -/
def Party.answer {σ : Type} (party : Party σ H Q A) :
    (q : Exchange H Q) → Pool H × σ → Exchange.Answer A q × (Pool H × σ)
  | .pool c, (p, s) => p.perform party.toOutside c s
  | .server h q, (p, s) =>
    let (a, s) := party.send h q s
    (a, p, s)

/-- The outcome of a session that nothing else comes between. -/
def run {σ : Type} (party : Party σ H Q A) (d : Session H Q A α) (p : Pool H) (s : σ) :
    α × Pool H × σ :=
  d.hold party.answer (p, s)

end Session
end Polyshell
