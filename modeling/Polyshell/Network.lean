/-
  The way to the servers.

  A network opens connections, carries requests and replies over them, and closes them; it also knows
  the time.  Connections are known by number.  What it is like inside does not matter here: it works on
  a state of any kind.

  A `Party` for each kind of server is made of it here.  Each kind has its own way to say where a
  connection leads, and its own words for a server that cannot be reached.
-/
import Polyshell.Redis.Address
import Polyshell.Redis.Session
import Polyshell.Sql.Session
import Polyshell.Mongo.Session

namespace Polyshell

/-- How opening a connection ends. -/
inductive Opening where
  | opened (client : Nat)
  /-- The server cannot be reached. -/
  | unreachable (problem : String)
  /-- The server can be reached, but lets no one in. -/
  | refused (problem : String)
  | timedOut
deriving DecidableEq, Repr, Inhabited

namespace Mongo

/-- How a connection to a document server is opened. -/
structure Login where
  host : String
  port : Nat
  username : Option String
  password : Option Secret
deriving DecidableEq

/-- The login for a key. -/
def Login.ofKey (k : PoolKey) : Login := ⟨k.host, k.port, k.username, k.password⟩

end Mongo

/-- A network whose state is in `σ`. -/
structure Network (σ : Type) where
  clock : σ → Nat
  pause : (millis : Nat) → σ → σ
  openRelational : Sql.Login → σ → Opening × σ
  openKeyValue : (address : String) → σ → Opening × σ
  openDocument : Mongo.Login → σ → Opening × σ
  close : Backend → (client : Nat) → σ → σ
  askRelational : (client : Nat) → Sql.Request → σ → Sql.Answer × σ
  askKeyValue : (client : Nat) → Redis.Request → σ → Redis.Answer × σ
  askDocument : (client : Nat) → (database : String) → Document → σ → Mongo.Answer × σ

namespace Opening

/-- What is said when a server cannot be reached. -/
def unreachableText (target : PoolKey) (problem : String) : String :=
  match target.backend with
  | .relational => (RelationalFault.communication problem).text
  | .keyValue => problem
  | .document =>
    "Kind: Server selection timeout: No available servers. Topology: \x7b Type: Unknown, Servers: [ \x7b Address: "
      ++ target.address ++ ", Type: Unknown, Error: Kind: I/O error: " ++ problem ++
      ", labels: \x7b\x7d \x7d ] \x7d, labels: \x7b\x7d"

/-- An attempt to connect, with the handle that a connection has in its pool. -/
def attempt {H : Type} (target : PoolKey) (handle : Nat → H) : Opening → Attempt H
  | .opened client => .opened (handle client)
  | .unreachable problem =>
    .failed (.connection (.connectionFailed target.display (unreachableText target problem)))
  | .refused problem => .failed (.connection (.connectionFailed target.display problem))
  | .timedOut => .timedOut

end Opening

namespace Network

variable {σ : Type}

/-- The network as relational commands use it. -/
def relational (net : Network σ) : Session.Party σ Nat Sql.Request Sql.Answer where
  clock := net.clock
  pause := net.pause
  connect target s :=
    let (o, s) := net.openRelational (.ofKey target) s
    (o.attempt target id, s)
  close := net.close .relational
  send := net.askRelational

/-- The network as key-value commands use it. -/
def keyValue (net : Network σ) : Session.Party σ Nat Redis.Request Redis.Answer where
  clock := net.clock
  pause := net.pause
  connect target s :=
    let (o, s) := net.openKeyValue (Redis.connectionAddress target) s
    (o.attempt target id, s)
  close := net.close .keyValue
  send := net.askKeyValue

/-- The network as commands of the document shell use it. -/
def document (net : Network σ) :
    Session.Party σ Mongo.Connection Mongo.Request Mongo.Answer where
  clock := net.clock
  pause := net.pause
  connect target s :=
    let (o, s) := net.openDocument (.ofKey target) s
    (o.attempt target fun client => ⟨client, Mongo.startDatabase target⟩, s)
  close c := net.close .document c.client
  send c q := net.askDocument c.client (q.database c) q.command

end Network
end Polyshell
