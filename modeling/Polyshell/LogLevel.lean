/-
  How much the shell logs.

  A level has the name it is configured by and the name it is logged under.  A user may write it in
  any case of letters, with blanks around, and may write `warning` for `warn`; a configuration file
  must have the plain name.
-/
import Polyshell.Text.Blank
import Polyshell.Text.Lowercase

namespace Polyshell

/-- A level of logging; each includes those before it. -/
inductive LogLevel where
  | error
  | warn
  | info
  | debug
  | trace
deriving DecidableEq, Repr, Inhabited

namespace LogLevel

/-- The name in a configuration. -/
def name : LogLevel → String
  | .error => "error"
  | .warn => "warn"
  | .info => "info"
  | .debug => "debug"
  | .trace => "trace"

/-- The name in a log. -/
def label : LogLevel → String
  | .error => "ERROR"
  | .warn => "WARN"
  | .info => "INFO"
  | .debug => "DEBUG"
  | .trace => "TRACE"

/-- The level with exactly that name. -/
def ofName? (text : String) : Option LogLevel :=
  [error, warn, info, debug, trace].find? fun l => l.name == text

/-- The level that a user means. -/
def parse? (text : String) : Option LogLevel :=
  let t := Text.lowercase (Text.trimmed text)
  if t = "warning" then some .warn else ofName? t

theorem ofName?_name (l : LogLevel) : ofName? l.name = some l := by cases l <;> decide

end LogLevel
end Polyshell
