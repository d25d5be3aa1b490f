/-
  The arguments of the shell.

  The shell is told which server to talk to, either by the name of a profile or by its parts; what
  to run, unless it is used interactively; and where its configuration is.  It has two subcommands
  that talk to no server, and `help`.
-/
import Polyshell.CommandLine.Reader
import Polyshell.Config

namespace Polyshell.CommandLine

/-- What the shell does instead of talking to a server. -/
inductive Subcommand where
  | version
  | config (display validate : Bool)
deriving DecidableEq, Repr

/-- The arguments of the shell. -/
structure Arguments where
  connection : Option String
  backend : Option String
  host : Option String
  port : Option Nat
  database : Option String
  username : Option String
  password : Option String
  session : Option String
  /-- A command to run, instead of an interactive session. -/
  eval : Option String
  configFile : Option String
  timeout : Option Nat
  quiet : Bool
  verbose : Bool
  veryVerbose : Bool
  command : Option Subcommand
deriving DecidableEq, Repr

/-! ## The options -/

def helpFlag : Flag := ⟨"help", some 'h', .help⟩

/-- The role of a port. -/
def portRole : Role := .number true Config.maxPort

/-- The role of a number of seconds. -/
def secondsRole : Role := .number false Config.maxSeconds

/-- The shell. -/
def shell : Command where
  flags :=
    [⟨"connection", some 'd', .text⟩, ⟨"backend", some 'b', .text⟩, ⟨"host", none, .text⟩,
      ⟨"port", none, portRole⟩, ⟨"database", none, .text⟩, ⟨"username", some 'u', .text⟩,
      ⟨"password", some 'p', .text⟩, ⟨"session", none, .text⟩, ⟨"eval", some 'e', .text⟩,
      ⟨"config", some 'c', .path⟩, ⟨"timeout", none, secondsRole⟩, ⟨"quiet", some 'q', .switch⟩,
      ⟨"verbose", some 'v', .switch⟩, ⟨"vv", none, .switch⟩, helpFlag,
      ⟨"version", some 'V', .version⟩]
  subcommands := ["version", "config", "help"]

/-- The subcommand `version`. -/
def versionCommand : Command := ⟨[helpFlag], []⟩

/-- The subcommand `config`. -/
def configCommand : Command :=
  ⟨[⟨"show", none, .switch⟩, ⟨"validate", none, .switch⟩, helpFlag], []⟩

/-! ## Reading -/

/-- The number of an option that holds one. -/
def numberIn? (g : Given) (name : String) (role : Role) : Option Nat :=
  match role with
  | .number signed hi => (g.value? name).bind (numberOf? signed hi)
  | _ => none

/-- The arguments that options make. -/
def Arguments.ofGiven (g : Given) (command : Option Subcommand) : Arguments where
  connection := g.value? "connection"
  backend := g.value? "backend"
  host := g.value? "host"
  port := numberIn? g "port" portRole
  database := g.value? "database"
  username := g.value? "username"
  password := g.value? "password"
  session := g.value? "session"
  eval := g.value? "eval"
  configFile := g.value? "config"
  timeout := numberIn? g "timeout" secondsRole
  quiet := g.has "quiet"
  verbose := g.has "verbose"
  veryVerbose := g.has "vv"
  command := command

/-- A subcommand with its own words. -/
def readSubcommand (name : String) (words : List String) : Except Refusal Subcommand :=
  if name = "help" then .error (readHelp shell words)
  else if name = "version" then do
    let (p, _) ← readWords versionCommand .start words
    let _ ← p.settle
    return .version
  else do
    let (p, _) ← readWords configCommand .start words
    let g ← p.settle
    return .config (g.has "show") (g.has "validate")

/-- The arguments that words make. -/
def Arguments.ofWords (words : List String) : Except Refusal Arguments := do
  let (p, rest) ← readWords shell .start words
  let command ← match rest with
    | some (name, words) => some <$> readSubcommand name words
    | none => pure none
  return ofGiven (← p.settle) command

/-- Whether `words` are refused for a reason. -/
def refused (words : List String) (r : Refusal) : Bool :=
  match Arguments.ofWords words with
  | .error r' => r' == r
  | .ok _ => false

example : refused ["--port", "x", "-d"] .valueValidation = true := by decide +kernel
example : refused ["--port", "x", "--unknown"] .unknownArgument = true := by decide +kernel
example : refused ["-vd"] .invalidValue = true ∧ refused ["-v", "-v"] .argumentConflict = true := by
  decide +kernel
example : refused ["--", "config"] .unknownArgument = true := by decide +kernel

end Polyshell.CommandLine
