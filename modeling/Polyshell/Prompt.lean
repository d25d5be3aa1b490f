/-
  The prompt of an interactive session.

  The prompt shows the connection and the database that is in use.  The name of a database stands
  behind a slash; a label in brackets, as key-value servers have it, stands behind the connection as
  it is.
-/

namespace Polyshell

/-- What the prompt shows. -/
structure Prompt where
  connection : String
  database : Option String
deriving DecidableEq, Repr

namespace Prompt

/-- The prompt after another database was selected. -/
def select (p : Prompt) (database : String) : Prompt := { p with database := some database }

/-- How the database stands behind the connection. -/
def suffix (database : String) : String :=
  match database.toList with
  | '[' :: _ => database
  | _ => "/" ++ database

/-- The text in front of the line that is typed. -/
def left (p : Prompt) : String :=
  p.connection ++ (match p.database with | some d => suffix d | none => "") ++ "> "

/-- The text at the right edge. -/
def right : String := ""

/-- The text between the prompt and the line. -/
def indicator : String := ""

/-- The text in front of the further lines of a command. -/
def continuation : String := "... "

/-- The text while the history is searched for `term`. -/
def searching (term : String) (failing : Bool) : String :=
  "(" ++ (if failing then "failing " else "") ++ "reverse-search: " ++ term ++ ") "

example : (Prompt.mk "shop" none |>.select "app").left = "shop/app> " := by decide +kernel
example : (Prompt.mk "cache" none |>.select "[db3]").left = "cache[db3]> " := by decide +kernel

end Prompt
end Polyshell
