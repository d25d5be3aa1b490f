/-
  Configuration files.

  A file is a TOML document.  Every setting is optional but the name, the kind and the host of a
  profile; what the shell does not know is passed over; a setting of the wrong type is an error.
  Reading starts from the defaults, so a file that says nothing gives `Config.default`.

  `Config.toToml` writes a configuration the way such files are written, with every setting that has
  a value.
-/
import Polyshell.Config
import Polyshell.Toml.Reader
import Polyshell.Toml.Printer

namespace Polyshell

namespace Config

/-! ## Reading -/

/-- A setting that may be missing. -/
def optional? {α : Type} (key : String) (read : Toml → Option α) (ms : Toml.Members) :
    Except ConfigError (Option α) :=
  match Toml.find? ms key with
  | none => .ok none
  | some v =>
    match read v with
    | some x => .ok (some x)
    | none => .error (.invalidFormat ("wrong type of value for `" ++ key ++ "`"))

/-- A setting that has a default. -/
def setting {α : Type} (key : String) (read : Toml → Option α) (default : α) (ms : Toml.Members) :
    Except ConfigError α := do
  return (← optional? key read ms).getD default

/-- A setting that must be there. -/
def required {α : Type} (key : String) (read : Toml → Option α) (ms : Toml.Members) :
    Except ConfigError α := do
  match ← optional? key read ms with
  | some x => return x
  | none => throw (.invalidFormat ("missing field `" ++ key ++ "`"))

/-- The fields of a group of settings. -/
def fieldsOf (key : String) (names : List String) (v : Toml) : Except ConfigError Toml.Members :=
  match v.fields? names with
  | some ms => .ok ms
  | none => .error (.invalidFormat ("wrong type of value for `" ++ key ++ "`"))

/-- A group of settings, which may be missing as a whole. -/
def group {α : Type} (key : String) (names : List String)
    (read : Toml.Members → Except ConfigError α) (default : α) (ms : Toml.Members) :
    Except ConfigError α :=
  match Toml.find? ms key with
  | none => .ok default
  | some v => do read (← fieldsOf key names v)

/-- The settings of the pool, in their order. -/
def poolFields : List String := ["idle_ttl", "sweep_interval", "connect_timeout", "retry_attempts"]

def readPool (ms : Toml.Members) : Except ConfigError PoolConfig := do
  let d := PoolConfig.default
  let idleTtl ← setting "idle_ttl" (Toml.natural? maxSeconds) d.idleTtl ms
  let sweepInterval ← setting "sweep_interval" (Toml.natural? maxSeconds) d.sweepInterval ms
  let connectTimeout ← setting "connect_timeout" (Toml.natural? maxSeconds) d.connectTimeout ms
  let retryAttempts ← setting "retry_attempts" (Toml.natural? maxAttempts) d.retryAttempts ms
  return ⟨idleTtl, sweepInterval, connectTimeout, retryAttempts⟩

/-- The settings of what is shown. -/
def displayFields : List String := ["table_style"]

def readDisplay (ms : Toml.Members) : Except ConfigError Sql.TableStyle :=
  setting "table_style" (fun v => v.name?.bind Sql.TableStyle.ofName?) .ascii ms

/-- The settings of logging, in their order. -/
def loggingFields : List String := ["level", "timestamps"]

def readLogging (ms : Toml.Members) : Except ConfigError LoggingConfig := do
  let d := LoggingConfig.default
  let level ← setting "level" (fun v => v.name?.bind LogLevel.ofName?) d.level ms
  let timestamps ← setting "timestamps" Toml.boolean? d.timestamps ms
  return ⟨level, timestamps⟩

/-- The fields of a profile, in their order. -/
def profileFields : List String :=
  ["id", "backend", "host", "port", "username", "password", "database"]

def readProfile (v : Toml) : Except ConfigError Profile := do
  let ms ← fieldsOf "connections" profileFields v
  let id ← required "id" Toml.text? ms
  let backend ← required "backend" (fun v => v.name?.bind Backend.ofName?) ms
  let host ← required "host" Toml.text? ms
  let port ← optional? "port" (Toml.natural? maxPort) ms
  let username ← optional? "username" Toml.text? ms
  let password ← optional? "password" Toml.text? ms
  let database ← optional? "database" Toml.text? ms
  return ⟨id, backend, host, port, username, password, database⟩

/-- The profiles. -/
def readProfiles (ms : Toml.Members) : Except ConfigError (List Profile) :=
  match Toml.find? ms "connections" with
  | none => .ok []
  | some (.array items) => items.mapM readProfile
  | some _ => .error (.invalidFormat "wrong type of value for `connections`")

/-- The configuration that a document holds. -/
def ofToml (ms : Toml.Members) : Except ConfigError Config := do
  let pool ← group "pool" poolFields readPool .default ms
  let tableStyle ← group "display" displayFields readDisplay .ascii ms
  let logging ← group "logging" loggingFields readLogging .default ms
  let connections ← readProfiles ms
  return ⟨pool, tableStyle, logging, connections⟩

/-- The configuration that a file's text holds. -/
def ofText (text : String) : Except ConfigError Config :=
  match Toml.read text.toList with
  | .ok ms => ofToml ms
  | .error f => .error (.invalidFormat f.message)

/-! ## Writing -/

/-- An entry that is left out when there is no value. -/
def given? {α : Type} (key : String) (write : α → Toml) (x : Option α) : Toml.Members :=
  match x with
  | some x => [(key, write x)]
  | none => []

def natural (n : Nat) : Toml := .integer n

end Config

/-- A profile as the file has it. -/
def Profile.toToml (p : Profile) : Toml :=
  .table
    ([("id", .text p.id), ("backend", .text p.backend.configName), ("host", .text p.host)] ++
      Config.given? "port" Config.natural p.port ++ Config.given? "username" .text p.username ++
      Config.given? "password" .text p.password ++ Config.given? "database" .text p.database)

/-- A configuration as the file has it. -/
def Config.toToml (c : Config) : Toml.Members :=
  [("pool",
      .table
        [("idle_ttl", natural c.pool.idleTtl), ("sweep_interval", natural c.pool.sweepInterval),
          ("connect_timeout", natural c.pool.connectTimeout),
          ("retry_attempts", natural c.pool.retryAttempts)]),
    ("display", .table [("table_style", .text c.tableStyle.name)]),
    ("logging",
      .table [("level", .text c.logging.level.name), ("timestamps", .boolean c.logging.timestamps)]),
    ("connections", .array (c.connections.map Profile.toToml))]

/-- What stands for a password in texts. -/
def Profile.shownPassword : String := "***"

/-- The profile with its password covered. -/
def Profile.covered (p : Profile) : Profile :=
  { p with password := p.password.map fun _ => Profile.shownPassword }

/-- The text of a configuration, the passwords covered. -/
def Config.shown (c : Config) : String :=
  Toml.document { c with connections := c.connections.map Profile.covered }.toToml

example : (Config.ofText "").toOption = some Config.default := by decide +kernel
example :
    ((Config.ofText "pool = \x7bidle_ttl = 5\x7d").toOption.map fun c => c.pool.idleTtl) = some 5 := by
  decide +kernel

end Polyshell
