/-
  The program.

  It reads its arguments, the configuration and the environment, and carries out one command or an
  interactive session.  Everything that it decides is decided elsewhere; here are the files, the
  clock, the terminal and the network.  This program is built without a network of its own: every
  server is out of reach, and the user is told so.
-/
import Std.Time.DateTime.Timestamp
import Polyshell.CommandLine.Usage
import Polyshell.Repl
import Polyshell.Text.Uuid

namespace Polyshell

open CommandLine

/-! ## Surroundings -/

/-- The present, in milliseconds since 1970. -/
def nowMillis : IO Int := do
  let t ← Std.Time.Timestamp.now
  return t.toMillisecondsSinceUnixEpoch.val

/-- What a path leads to. -/
def lookAt (path : String) : IO Config.Source := do
  try
    return .text (← IO.FS.readFile path)
  catch
    | .noFileOrDirectory .. => return .missing
    | e => return .unreadable (toString e)

/-- The variables that the shell reads. -/
def readVariables : IO (List (String × String)) := do
  let names := ["POOL_IDLE_TTL", "POOL_SWEEP_INTERVAL", "POOL_CONNECT_TIMEOUT",
    "POOL_RETRY_ATTEMPTS", "LOG_LEVEL"]
  names.filterMapM fun n => do
    let name := Config.variableStem ++ n
    return (← IO.getEnv name).map fun v => (name, v)

/-- What the configuration is loaded from: of the files only the one that is asked for. -/
def surroundings (a : Arguments) : IO Config.Surroundings := do
  let home := (← IO.getEnv "HOME").getD ""
  let path := a.configFile.getD (Config.defaultPath home)
  let source ← lookAt path
  let settings ← readVariables
  return ⟨fun p => if p = path then source else .missing, fun n => Members.find? n settings, home⟩

/-- What a command may take from outside its text. -/
def ambientNow : IO Mongo.Ambient := do
  let now ← nowMillis
  let bytes ← IO.getRandomBytes 8
  let random := bytes.toList.foldl (fun n b => n * 256 + b.toNat) 0
  return ⟨now, fun n => ⟨BitVec.ofNat 96 (now.toNat / 1000 * Nat.pow 2 64 + (random + n) % Nat.pow 2 64)⟩⟩

/-- Why a server cannot be reached. -/
def outOfReach : String := "Network is unreachable"

/-- A network without servers.  Its state is the time. -/
def emptyNetwork : Network Nat where
  clock now := now
  pause millis now := now + millis
  openRelational _ now := (.unreachable outOfReach, now)
  openKeyValue _ now := (.unreachable outOfReach, now)
  openDocument _ now := (.unreachable outOfReach, now)
  close _ _ now := now
  askRelational _ _ now := (.error (.communication outOfReach), now)
  askKeyValue _ _ now := (.error (.extension outOfReach none), now)
  askDocument _ _ _ now := (.error (.other outOfReach), now)

/-! ## Running -/

/-- Carries out one command, after closing what has become idle. -/
def runCommand (x : Executor) (r : CommandRequest) : IO (Except ShellError Outcome × Executor) := do
  let now := (← nowMillis).toNat
  let ambient ← ambientNow
  let (_, x, now) := x.sweep emptyNetwork now
  let (o, x, _) := x.execute emptyNetwork ambient r now
  return (o, x)

/-- Reads and carries out commands until the session ends. -/
partial def converse (input : IO.FS.Stream) (x : Executor) (r : CommandRequest) (p : Prompt) :
    IO Unit := do
  IO.print (p.left ++ Prompt.indicator)
  (← IO.getStdout).flush
  let typed ← input.getLine
  if typed.isEmpty then return
  match Repl.Line.ofText typed with
  | .blank => converse input x r p
  | .farewell => return
  | .command text =>
    let (o, x) ← runCommand x { r with text := text }
    match o with
    | .ok o =>
      IO.println o.text
      converse input x r (Repl.promptAfter p o)
    | .error e =>
      IO.eprintln e.message
      converse input x r p

/-- Tells the user what went wrong; gives the status of the program. -/
def failWith (e : ShellError) : IO UInt32 := do
  IO.eprintln ("Error: " ++ e.message)
  return 1

/-- Works with the server of a profile. -/
def work (i : Invocation) (p : Profile) : IO UInt32 := do
  let session := i.session (Text.Uuid.ofBytes (← IO.getRandomBytes 16).toList)
  let x := Executor.ofConfig i.config
  let r : CommandRequest := ⟨p.backend, p.id, session, i.arguments.eval.getD ""⟩
  if i.arguments.eval.isSome then
    match (← runCommand x r).1 with
    | .ok o =>
      IO.println o.text
      return 0
    | .error e => failWith e
  else
    IO.print (i.banner p)
    converse (← IO.getStdin) x r ⟨p.id, p.database⟩
    IO.println "Goodbye!"
    return 0

/-- Runs the shell as its arguments say. -/
def runInvocation (i : Invocation) : IO UInt32 := do
  match i.output? with
  | some text =>
    IO.print text
    return 0
  | none =>
    match i.profile with
    | .error e => failWith e
    | .ok p => work i p

/-- Runs the shell with some arguments. -/
def runShell (words : List String) : IO UInt32 := do
  match Arguments.ofWords words with
  | .error r =>
    if r.isAnswer then IO.println r.text else IO.eprintln r.text
    return r.status.toUInt32
  | .ok a =>
    match Invocation.ofArguments (← surroundings a) a with
    | .error e => failWith e
    | .ok i => runInvocation i

end Polyshell

/-- The program. -/
def main (words : List String) : IO UInt32 := Polyshell.runShell words
