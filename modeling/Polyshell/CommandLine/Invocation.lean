/-
  One run of the shell: its arguments, and the configuration that they leave.

  The configuration is loaded, then overridden by the arguments, and checked both times.  Arguments
  that name a server by its parts make a profile of their own, `adHoc`, which takes the place of
  one by that name in the file.
-/
import Polyshell.CommandLine.Arguments
import Polyshell.Config.Environment

namespace Polyshell.CommandLine

/-- A run of the shell. -/
structure Invocation where
  arguments : Arguments
  config : Config
  /-- The home directory of the user. -/
  home : String

/-- The name of the profile that the arguments make. -/
def adHoc : String := "cli"

/-- The version of the shell. -/
def shellVersion : String := "0.1.0"

/-! ## Overriding the configuration -/

/-- The level of logging: the most talkative argument wins. -/
def Arguments.level (a : Arguments) (configured : LogLevel) : LogLevel :=
  if a.veryVerbose then .trace
  else if a.verbose then .debug
  else if a.quiet then .error
  else configured

/-- The kind of the server that the arguments name. -/
def Arguments.backendOf (a : Arguments) : Except ConfigError Backend :=
  match a.backend with
  | none => .ok .document
  | some name => (Backend.parse name).mapError fun _ => .invalidValue "backend" name

/-- The profile that the arguments make, if they name a host or a kind of server. -/
def Arguments.profile? (a : Arguments) : Except ConfigError (Option Profile) :=
  if a.host.isNone && a.backend.isNone then .ok none
  else do
    let backend ← a.backendOf
    return some ⟨adHoc, backend, a.host.getD "localhost", a.port, a.username, a.password, a.database⟩

/-- The profiles with one that replaces those of its name. -/
def withProfile (connections : List Profile) : Option Profile → List Profile
  | none => connections
  | some p => connections.filter (fun q => q.id != p.id) ++ [p]

/-- The configuration under the arguments. -/
def Arguments.applyTo (a : Arguments) (c : Config) : Except ConfigError Config := do
  let p ← a.profile?
  return {
    pool := { c.pool with connectTimeout := a.timeout.getD c.pool.connectTimeout }
    tableStyle := c.tableStyle
    logging := { c.logging with level := a.level c.logging.level }
    connections := withProfile c.connections p }

/-- A run with these arguments. -/
def Invocation.ofArguments (s : Config.Surroundings) (a : Arguments) :
    Except ShellError Invocation := do
  let loaded ← Config.load s a.configFile
  let config ← (a.applyTo loaded).mapError ShellError.config
  (config.check).mapError ShellError.config
  return ⟨a, config, s.home⟩

/-! ## What a run talks to -/

/-- The profile that is used: the one that is named, else the one that the arguments make, else the
    first. -/
def Invocation.profile (i : Invocation) : Except ShellError Profile :=
  let named (id : String) : Except ShellError Profile :=
    match i.config.profile? id with
    | some p => .ok p
    | none => .error (.connection (.unknownConnection id))
  match i.arguments.connection with
  | some id => named id
  | none =>
    if (i.config.profile? adHoc).isSome then named adHoc
    else match i.config.connections with
      | p :: _ => .ok p
      | [] => .error (.config (.missingField "connections"))

/-- The session: the one that is named, or a new one. -/
def Invocation.session (i : Invocation) (generated : String) : String :=
  i.arguments.session.getD generated

/-! ## What a run prints by itself -/

/-- Where the configuration is. -/
def Invocation.configPath (i : Invocation) : String :=
  i.arguments.configFile.getD (Config.defaultPath i.home)

/-- The versions of the shell and of its compiler. -/
def versionText : String := "dbshell version " ++ shellVersion ++ "\nRust version: 1.91\n"

/-- What the subcommand prints, if there is one.  That the configuration is valid was found out
    when it was loaded. -/
def Invocation.output? (i : Invocation) : Option String :=
  i.arguments.command.map fun
    | .version => versionText
    | .config display validate =>
      (if validate then "Configuration is valid: " ++ i.configPath ++ "\n" else "") ++
      (if display then "Configuration file: " ++ i.configPath ++ "\n\n" ++ i.config.shown ++ "\n"
        else "")

/-- What is printed before an interactive session. -/
def Invocation.banner (i : Invocation) (p : Profile) : String :=
  if i.arguments.quiet then ""
  else
    "Connecting to: " ++ p.backend.scheme ++ "://" ++ p.host ++ ":" ++ toString p.portOrDefault ++
      "\nUsing dbshell: " ++ shellVersion ++ "\n"

end Polyshell.CommandLine
