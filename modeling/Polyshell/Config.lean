/-
  The configuration of the shell.

  A configuration says how connections are pooled, how results are shown, what is logged, and which
  servers there are under which names.  It is merged from four sources, each overriding those
  before it: the defaults here, a file (`Config.File`), the environment (`Config.Environment`) and
  the command line (`CommandLine`).  `Config.check` says whether the outcome can be used.
-/
import Polyshell.Backend
import Polyshell.LogLevel
import Polyshell.Sql.Table
import Polyshell.Error

namespace Polyshell

/-! ## Settings -/

/-- How connections are pooled; durations are in seconds. -/
structure PoolConfig where
  /-- For how long a connection may lie unused. -/
  idleTtl : Nat
  /-- How long it is from one sweep of unused connections to the next. -/
  sweepInterval : Nat
  /-- For how long one attempt to connect may last. -/
  connectTimeout : Nat
  /-- How often connecting is attempted; zero means once. -/
  retryAttempts : Nat
deriving DecidableEq, Repr, Inhabited

/-- What is logged. -/
structure LoggingConfig where
  level : LogLevel
  timestamps : Bool
deriving DecidableEq, Repr, Inhabited

/-- A server under a name. -/
structure Profile where
  id : String
  backend : Backend
  host : String
  port : Option Nat
  username : Option String
  password : Option String
  /-- The database that a session starts in. -/
  database : Option String
deriving DecidableEq, Repr, Inhabited

/-- A configuration. -/
structure Config where
  pool : PoolConfig
  tableStyle : Sql.TableStyle
  logging : LoggingConfig
  connections : List Profile
deriving DecidableEq, Repr, Inhabited

def PoolConfig.default : PoolConfig := ⟨600, 60, 10, 3⟩

def LoggingConfig.default : LoggingConfig := ⟨.warn, true⟩

def Config.default : Config := ⟨.default, .ascii, .default, []⟩

/-- Bounds of what a configuration may hold: words of 64 and 32 bits, and port numbers. -/
def Config.maxSeconds : Nat := Decimal.maxWord64
def Config.maxAttempts : Nat := 4294967295
def Config.maxPort : Nat := 65535

/-- How often connecting is attempted in fact. -/
def PoolConfig.attempts (p : PoolConfig) : Nat := max 1 p.retryAttempts

/-- The port of a server: the one that was given, or the usual one of its kind. -/
def Profile.portOrDefault (p : Profile) : Nat := p.port.getD p.backend.defaultPort

/-- The first profile with a name. -/
def Config.profile? (c : Config) (id : String) : Option Profile :=
  c.connections.find? fun p => p.id == id

/-! ## Whether a configuration can be used -/

/-- Whether a text holds nothing but blanks. -/
def isBlankText (s : String) : Bool := (Text.trim s.toList).isEmpty

/-- The first fault of a profile; `seen` holds the names of those before it. -/
def Profile.fault? (seen : List String) (p : Profile) : Option ConfigError :=
  if isBlankText p.id then some (.missingField "connections.id")
  else if isBlankText p.host then some (.missingField ("connections." ++ p.id ++ ".host"))
  else if seen.contains p.id then some (.invalidValue "connections.id" p.id)
  else none

/-- The first fault of several profiles. -/
def profilesFault? (seen : List String) : List Profile → Option ConfigError
  | [] => none
  | p :: ps =>
    match p.fault? seen with
    | some e => some e
    | none => profilesFault? (p.id :: seen) ps

/-- The first of some settings that is zero. -/
def zeroFault? : List (String × Nat) → Option ConfigError
  | [] => none
  | (field, n) :: r => if n = 0 then some (.invalidValue field (toString n)) else zeroFault? r

/-- The settings that must not be zero. -/
def PoolConfig.positive (p : PoolConfig) : List (String × Nat) :=
  [("pool.idle_ttl", p.idleTtl), ("pool.sweep_interval", p.sweepInterval),
    ("pool.connect_timeout", p.connectTimeout)]

/-- The first fault of a configuration: a duration is zero, a profile has no name or no host, or two
    profiles have one name. -/
def Config.fault? (c : Config) : Option ConfigError :=
  match zeroFault? c.pool.positive with
  | some e => some e
  | none => profilesFault? [] c.connections

/-- Refuses a configuration that cannot be used. -/
def Config.check (c : Config) : Except ConfigError Unit :=
  match c.fault? with
  | some e => .error e
  | none => .ok ()

example : Config.default.fault? = none := by decide +kernel

end Polyshell
