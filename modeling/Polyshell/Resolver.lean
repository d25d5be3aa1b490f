/-
  From the name of a connection to the server behind it.

  Commands name a connection; a resolver knows where the server is and how to log in.  The kind of
  server must be the one that the command is written for.  Of several profiles by one name the last
  one counts; a checked configuration has no such profiles.
-/
import Polyshell.Config
import Polyshell.Pool.Key

namespace Polyshell

/-- A server and how to log in. -/
structure Target where
  backend : Backend
  host : String
  port : Nat
  username : Option String
  password : Option Secret
  /-- The database that a session starts in. -/
  database : Option String
deriving DecidableEq, Inhabited

namespace Target

/-- A text that says something. -/
def filled (s : Option String) : Option String := s.filter fun t => !t.isEmpty

/-- The server of a profile.  Empty texts count as missing ones. -/
def ofProfile (p : Profile) : Target where
  backend := p.backend
  host := p.host
  port := p.portOrDefault
  username := filled p.username
  password := (filled p.password).map Secret.mk
  database := filled p.database

/-- The identity of the connection that a session has to this server. -/
def key (t : Target) (session : String) : PoolKey where
  backend := t.backend
  host := t.host
  port := t.port
  username := t.username
  password := t.password
  database := t.database
  session := some session

/-- All fields, the password masked. -/
def inspect (t : Target) : String :=
  Inspect.record "ConnectionTarget"
    [("backend", t.backend.variantName), ("host", Text.quote t.host), ("port", toString t.port),
      ("username", Inspect.optionText t.username), ("password", Inspect.optionSecret t.password),
      ("default_database", Inspect.optionText t.database)]

end Target

/-- Servers under names, each name once. -/
structure Resolver where
  targets : List (String × Target)

namespace Resolver

/-- The server under a name. -/
def find? (r : Resolver) (id : String) : Option Target :=
  (r.targets.find? fun x => x.1 == id).map (·.2)

/-- Puts a server under a name, in place of the one that was there. -/
def insert (r : Resolver) (id : String) (t : Target) : Resolver :=
  ⟨r.targets.filter (fun x => x.1 != id) ++ [(id, t)]⟩

def size (r : Resolver) : Nat := r.targets.length

/-- The servers of a configuration. -/
def ofConfig (c : Config) : Resolver :=
  c.connections.foldl (fun r p => r.insert p.id (.ofProfile p)) ⟨[]⟩

/-- The server that a command for `backend` means by `id`. -/
def resolve (r : Resolver) (backend : Backend) (id : String) : Except ConnectionError Target :=
  match r.find? id with
  | none => .error (.unknownConnection id)
  | some t =>
    if t.backend = backend then .ok t
    else
      .error (.unknownConnection
        (id ++ " is a " ++ t.backend.scheme ++ " connection, not " ++ backend.scheme))

end Resolver
end Polyshell
