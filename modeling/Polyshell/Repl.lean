/-
  The interactive session.

  A line is blank, ends the session, or is a command.  The prompt follows the database: it changes
  when a command says that it did.
-/
import Polyshell.Executor
import Polyshell.Prompt

namespace Polyshell.Repl

/-- The words that end a session. -/
def farewells : List String := ["exit", "quit", ".exit"]

/-- What a line is. -/
inductive Line where
  | blank
  | farewell
  | command (text : String)
deriving DecidableEq, Repr

/-- What was typed. -/
def Line.ofText (typed : String) : Line :=
  let text := Text.trimmed typed
  if text.isEmpty then .blank else if farewells.contains text then .farewell else .command text

/-- The prompt behind a command. -/
def promptAfter (p : Prompt) (o : Outcome) : Prompt :=
  match o.changedDatabase with
  | some d => p.select d
  | none => p

example : Line.ofText "  quit " = .farewell ∧ Line.ofText "exit now" = .command "exit now" := by
  decide +kernel

end Polyshell.Repl
