/-
  What a command comes to: a text to print, and the database that the session is in from then on, if
  the command changed it.
-/
import Polyshell.Error

namespace Polyshell

/-- The outcome of a command that was carried out. -/
structure Outcome where
  text : String
  /-- What the prompt shows for the database that was selected. -/
  changedDatabase : Option String
deriving DecidableEq, Repr, Inhabited

/-- An outcome that leaves the database alone. -/
def Outcome.ofText (text : String) : Outcome := ⟨text, none⟩

end Polyshell
