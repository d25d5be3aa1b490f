/-
  The executor: any command, on any connection, for any session.

  There is a pool for each kind of server.  A command names a connection; the resolver says which
  server that is, and the session's connection to it comes from the pool of its kind.  An executor is
  a value: carrying a command out gives the executor as it is afterwards.
-/
import Polyshell.Network
import Polyshell.Resolver

namespace Polyshell

/-- A command to be carried out. -/
structure CommandRequest where
  backend : Backend
  /-- The name of the connection. -/
  connection : String
  session : String
  text : String
deriving DecidableEq, Repr

/-- An executor. -/
structure Executor where
  resolver : Resolver
  tableStyle : Sql.TableStyle
  relational : Pool Nat
  keyValue : Pool Nat
  document : Pool Mongo.Connection

namespace Executor

variable {σ : Type}

/-- The executor that a configuration describes; no connection is open. -/
def ofConfig (c : Config) : Executor where
  resolver := .ofConfig c
  tableStyle := c.tableStyle
  relational := .empty (.ofConfig c.pool)
  keyValue := .empty (.ofConfig c.pool)
  document := .empty (.ofConfig c.pool)

/-- Carries out a command on the connection of a key. -/
def executeAt (net : Network σ) (ambient : Mongo.Ambient) (x : Executor) (backend : Backend)
    (k : PoolKey) (text : String) (s : σ) : Except ShellError Outcome × Executor × σ :=
  match backend with
  | .relational =>
    let (o, p, s) := (Sql.execute x.tableStyle k text).run net.relational x.relational s
    (o, { x with relational := p }, s)
  | .keyValue =>
    let (o, p, s) := (Redis.execute k text).run net.keyValue x.keyValue s
    (o, { x with keyValue := p }, s)
  | .document =>
    let (o, p, s) := (Mongo.execute ambient k text).run net.document x.document s
    (o, { x with document := p }, s)

/-- Carries out a command. -/
def execute (net : Network σ) (ambient : Mongo.Ambient) (x : Executor) (r : CommandRequest)
    (s : σ) : Except ShellError Outcome × Executor × σ :=
  match x.resolver.resolve r.backend r.connection with
  | .error e => (.error (.connection e), x, s)
  | .ok t => x.executeAt net ambient r.backend (t.key r.session) r.text s

/-- One call on each of the three pools; gives the sum of the numbers that they answer. -/
def onPools (net : Network σ) (x : Executor) (c : {H : Type} → PoolCall H) (s : σ) :
    Nat × Executor × σ :=
  let (a, relational, s) := x.relational.perform net.relational.toOutside c s
  let (b, keyValue, s) := x.keyValue.perform net.keyValue.toOutside c s
  let (d, document, s) := x.document.perform net.document.toOutside c s
  (a.toNumber + b.toNumber + d.toNumber,
    { x with relational := relational, keyValue := keyValue, document := document }, s)

/-- Closes the connections of a session; gives their number. -/
def closeSession (net : Network σ) (x : Executor) (id : String) (s : σ) : Nat × Executor × σ :=
  x.onPools net (.removeSession id) s

/-- Closes what is idle now; gives the number of connections that were. -/
def sweep (net : Network σ) (x : Executor) (s : σ) : Nat × Executor × σ :=
  x.onPools net (.sweepAt (net.clock s)) s

/-- Closes all connections, for good. -/
def shutdown (net : Network σ) (x : Executor) (s : σ) : Executor × σ :=
  (x.onPools net .shutdown s).2

/-- An unknown connection is refused without anything being done. -/
theorem execute_of_unresolved (net : Network σ) (ambient : Mongo.Ambient) (x : Executor)
    (r : CommandRequest) (s : σ) {e : ConnectionError}
    (h : x.resolver.resolve r.backend r.connection = .error e) :
    x.execute net ambient r s = (.error (.connection e), x, s) := by
  simp [execute, h]

end Executor
end Polyshell
