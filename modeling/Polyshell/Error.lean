/-
  Everything that can go wrong, by the stage that finds it.

  A command is read, looked up, sent over a connection, and carried out by a server; each stage has
  its own errors.  `ShellError.message` is what the user is shown.
-/
import Polyshell.Error.Parse
import Polyshell.Error.Report

namespace Polyshell

/-- Something that was read but has no meaning here. -/
inductive UnsupportedError where
  | operation (name : String)
  /-- A method in a chain. -/
  | chainMethod (name : String)
deriving DecidableEq, Repr

/-- Why there is no connection. -/
inductive ConnectionError where
  /-- No profile has this name. -/
  | unknownConnection (id : String)
  | connectionFailed (target problem : String)
  | timeout (target : String) (seconds : Nat)
  /-- An operation named a key without a live connection. -/
  | notPooled (key : String)
  | poolClosed
deriving DecidableEq, Repr

/-- What is wrong with a configuration. -/
inductive ConfigError where
  | fileNotFound (path : String)
  | invalidFormat (problem : String)
  | missingField (field : String)
  | invalidValue (field value : String)
deriving DecidableEq, Repr

/-- An error of any stage. -/
inductive ShellError where
  | parse (e : ParseError)
  | unsupported (e : UnsupportedError)
  | connection (e : ConnectionError)
  | server (e : ServerError)
  | config (e : ConfigError)
  | io (problem : String)
  | generic (problem : String)

def UnsupportedError.message : UnsupportedError → String
  | .operation n => "Unsupported operation: " ++ n
  | .chainMethod n => "Unsupported chain method: " ++ n

def ConnectionError.message : ConnectionError → String
  | .unknownConnection id => "Unknown connection: " ++ id
  | .connectionFailed t p => "Failed to connect to " ++ t ++ ": " ++ p
  | .timeout t s => "Timed out connecting to " ++ t ++ " after " ++ toString s ++ "s"
  | .notPooled k => "No pooled connection for " ++ k
  | .poolClosed => "Connection pool is shut down"

def ConfigError.message : ConfigError → String
  | .fileNotFound p => "Config file not found: " ++ p
  | .invalidFormat p => "Invalid config format: " ++ p
  | .missingField f => "Missing required field: " ++ f
  | .invalidValue f v => "Invalid value '" ++ v ++ "' for field '" ++ f ++ "'"

/-- The error as the user is shown it. -/
def ShellError.message : ShellError → String
  | .parse e => e.message
  | .unsupported e => e.message
  | .connection e => "Connection error: " ++ e.message
  | .server e => e.message
  | .config e => "Configuration error: " ++ e.message
  | .io p => "I/O error: " ++ p
  | .generic p => p

namespace ShellError

/-- An error of a document server. -/
def ofDocument (f : DocumentFault) : ShellError := .server ⟨.document, f.report, none⟩

/-- An error of a key-value server. -/
def ofKeyValue (f : KeyValueFault) : ShellError := .server ⟨.keyValue, f.report, none⟩

/-- An error of a relational server, with the statement that caused it. -/
def ofRelational (f : RelationalFault) (statement : Option String) : ShellError :=
  .server ⟨.relational, f.report, statement⟩

end ShellError
end Polyshell
