/-
  Why a command could not be read.

  Every cause keeps the text that it is about, as the user wrote it; `message` is what the user is
  shown.
-/

namespace Polyshell

/-- A fault in the text of a command. -/
inductive ParseError where
  /-- The command has none of the known forms. -/
  | unsupportedCommand (command : String)
  /-- Brackets or quotes are left open, or closed without having been opened. -/
  | unbalancedDelimiters (text : String)
  /-- Something stands where a call `name(…)` should. -/
  | invalidMethodCall (text : String)
  /-- A value cannot be read. -/
  | invalidLiteral (literal reason : String)
  /-- An argument is missing or of the wrong kind. -/
  | invalidArgument (operation problem : String)
  /-- There is no command at all. -/
  | emptyCommand
deriving DecidableEq, Repr

/-- The fault in words. -/
def ParseError.message : ParseError → String
  | .unsupportedCommand c => "Unsupported command: " ++ c
  | .unbalancedDelimiters t => "Syntax error: unbalanced delimiters in '" ++ t ++ "'"
  | .invalidMethodCall t => "Syntax error: expected method call, found '" ++ t ++ "'"
  | .invalidLiteral l r => "Invalid literal '" ++ l ++ "': " ++ r
  | .invalidArgument o p => "Invalid argument for " ++ o ++ ": " ++ p
  | .emptyCommand => "Empty command"

end Polyshell
