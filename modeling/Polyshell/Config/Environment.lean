/-
  Settings from environment variables.

  Five variables override the settings of a file.  They are applied in a fixed order; a variable
  that cannot be read ends it, and what was applied before it stays applied, so `override` gives
  both the configuration that was reached and the error.
-/
import Polyshell.Config.File

namespace Polyshell

/-- The variables of a process. -/
abbrev Environment := String → Option String

namespace Config

/-- What the names of the shell's variables start with. -/
def variableStem : String := "DBSHELL_"

/-- The number that a variable holds, if it is set. -/
def numberIn (env : Environment) (name : String) : Except ConfigError (Option Nat) :=
  let key := variableStem ++ name
  match env key with
  | none => .ok none
  | some value =>
    match Decimal.readNat? maxSeconds (Text.trim value.toList) with
    | some n => .ok (some n)
    | none => .error (.invalidValue key value)

/-- One override: the configuration that it makes, or why it cannot be made. -/
abbrev Override := Environment → Config → Except ConfigError Config

/-- A number of seconds in the settings of the pool. -/
def overrideSeconds (name : String) (put : Nat → PoolConfig → PoolConfig) : Override := fun env c => do
  match ← numberIn env name with
  | some n => return { c with pool := put n c.pool }
  | none => return c

/-- The number of attempts, which has a bound of its own. -/
def overrideAttempts : Override := fun env c => do
  match ← numberIn env "POOL_RETRY_ATTEMPTS" with
  | some n =>
    if n ≤ maxAttempts then return { c with pool := { c.pool with retryAttempts := n } }
    else throw (.invalidValue (variableStem ++ "POOL_RETRY_ATTEMPTS") (toString n))
  | none => return c

/-- The level of logging. -/
def overrideLevel : Override := fun env c =>
  let key := variableStem ++ "LOG_LEVEL"
  match env key with
  | none => .ok c
  | some value =>
    match LogLevel.parse? value with
    | some level => .ok { c with logging := { c.logging with level := level } }
    | none => .error (.invalidValue key value)

/-- All overrides, in their order. -/
def overrides : List Override :=
  [overrideSeconds "POOL_IDLE_TTL" fun n p => { p with idleTtl := n },
    overrideSeconds "POOL_SWEEP_INTERVAL" fun n p => { p with sweepInterval := n },
    overrideSeconds "POOL_CONNECT_TIMEOUT" fun n p => { p with connectTimeout := n },
    overrideAttempts, overrideLevel]

/-- Applies overrides up to the first that fails. -/
def applyAll (env : Environment) : List Override → Config → Config × Option ConfigError
  | [], c => (c, none)
  | o :: os, c =>
    match o env c with
    | .ok c' => applyAll env os c'
    | .error e => (c, some e)

/-- The configuration under the environment's overrides, and the error that ended them, if any. -/
def override (env : Environment) (c : Config) : Config × Option ConfigError :=
  applyAll env overrides c

/-! ## Loading -/

/-- What a path leads to. -/
inductive Source where
  | missing
  | text (content : String)
  /-- Something that is there and cannot be read. -/
  | unreadable (problem : String)

/-- The files of a machine. -/
abbrev Files := String → Source

/-- The configuration in the file at a path. -/
def ofFile (files : Files) (path : String) : Except ShellError Config :=
  match files path with
  | .missing => .error (.config (.fileNotFound path))
  | .unreadable problem => .error (.io problem)
  | .text content => (ofText content).mapError .config

/-- Where the configuration of a user is looked for. -/
def defaultPath (home : String) : String := home ++ "/.dbshell/config.toml"

/-- What a configuration is loaded from. -/
structure Surroundings where
  files : Files
  env : Environment
  home : String

/-- The configuration before the environment: the file at `path`, else the user's own file if there
    is one, else the defaults. -/
def onDisk (s : Surroundings) (path : Option String) : Except ShellError Config :=
  match path with
  | some path => ofFile s.files path
  | none =>
    match s.files (defaultPath s.home) with
    | .missing => .ok .default
    | _ => ofFile s.files (defaultPath s.home)

/-- The configuration from a file and the environment, if it can be used. -/
def load (s : Surroundings) (path : Option String) : Except ShellError Config := do
  let c ← onDisk s path
  match c.override s.env with
  | (_, some e) => throw (.config e)
  | (c, none) => do
    (c.check).mapError ShellError.config
    return c

end Config
end Polyshell
