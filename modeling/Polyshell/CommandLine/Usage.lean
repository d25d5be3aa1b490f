/-
  What the shell says about its own command line.

  Asking for help or for the version is no fault; everything else for which a command line is refused
  is said in a line, with a hint at the help.
-/
import Polyshell.CommandLine.Invocation

namespace Polyshell.CommandLine

/-- The name of the program. -/
def programName : String := "dbshell"

/-- How an option is written. -/
def Flag.usage (f : Flag) : String :=
  let letter := match f.letter with
    | some c => "-" ++ String.singleton c ++ ", "
    | none => "    "
  let value := match f.role with
    | .text => " <TEXT>"
    | .path => " <PATH>"
    | .number _ _ => " <NUMBER>"
    | _ => ""
  "  " ++ letter ++ "--" ++ f.name ++ value

/-- The help. -/
def helpText : String :=
  "\n".intercalate <|
    ["Usage: " ++ programName ++ " [OPTIONS] [COMMAND]", "", "Commands:"] ++
      shell.subcommands.map ("  " ++ ·) ++ ["", "Options:"] ++ shell.flags.map Flag.usage

namespace Refusal

/-- What is wrong with a command line. -/
def problem : Refusal → String
  | .unknownArgument => "unexpected argument"
  | .invalidSubcommand => "unrecognized subcommand"
  | .invalidValue => "a value is required"
  | .valueValidation => "invalid value"
  | .argumentConflict => "an argument is given more than once"
  | .tooManyValues => "unexpected value"
  | .displayHelp => helpText
  | .displayVersion => programName ++ " " ++ shellVersion

/-- Whether the user asked for what is said. -/
def isAnswer (r : Refusal) : Bool := r = .displayHelp || r = .displayVersion

/-- What is printed. -/
def text (r : Refusal) : String :=
  if r.isAnswer then r.problem
  else "error: " ++ r.problem ++ "\n\nFor more information, use '--help'."

/-- The status that the program ends with. -/
def status (r : Refusal) : Nat := if r.isAnswer then 0 else 2

end Refusal
end Polyshell.CommandLine
