/-
  Reading command lines.

  A command takes options and has subcommands.  An option is written `--name` or, if it has a
  letter, `-l`; one that takes a value has it in the next word, behind `=`, or behind the letter.
  Letters of options without values may stand together.  Each option may be given once.  The first
  word that is neither an option nor a value names the subcommand, which reads all further words;
  behind a bare `--` nothing is an option any more.

  A value is checked when it is complete, that is when the next option or the end is seen
  (`settle`).  This decides which of two faults is reported: a bad value comes before a fault of a
  later option that is known, and after that of one that is not.
-/
import Polyshell.Decimal.Whole

namespace Polyshell.CommandLine

/-! ## Commands and options -/

/-- Why a command line is not carried out. -/
inductive Refusal where
  | unknownArgument
  | invalidSubcommand
  /-- A value is missing, or empty where it must not be. -/
  | invalidValue
  /-- A value is not of its type. -/
  | valueValidation
  /-- An option is given twice. -/
  | argumentConflict
  /-- A value for an option that takes none. -/
  | tooManyValues
  /-- The user asks for help. -/
  | displayHelp
  /-- The user asks for the version. -/
  | displayVersion
deriving DecidableEq, Repr

/-- What an option is for. -/
inductive Role where
  | switch
  /-- Any text. -/
  | text
  /-- A text that is not empty. -/
  | path
  /-- A whole number up to a bound; `signed` says whether a minus sign may stand before a zero. -/
  | number (signed : Bool) (hi : Nat)
  | help
  | version
deriving DecidableEq, Repr

/-- An option. -/
structure Flag where
  name : String
  letter : Option Char
  role : Role
deriving DecidableEq, Repr

/-- A command. -/
structure Command where
  flags : List Flag
  subcommands : List String

/-- The options that were given, with their values; a switch has an empty one. -/
abbrev Given := List (String × String)

/-- The value of an option. -/
def Given.value? (g : Given) (name : String) : Option String :=
  (g.find? fun x => x.1 == name).map (·.2)

/-- Whether an option was given. -/
def Given.has (g : Given) (name : String) : Bool := g.any fun x => x.1 == name

/-- The number that a text denotes under a role. -/
def numberOf? (signed : Bool) (hi : Nat) (value : String) : Option Nat :=
  if signed then
    match Decimal.readInt64? value.toList with
    | some n => if 0 ≤ n && n ≤ (hi : Int) then some n.toNat else none
    | none => none
  else Decimal.readNat? hi value.toList

/-- Checks a value. -/
def Role.check (role : Role) (value : String) : Except Refusal Unit :=
  match role with
  | .path => if value.isEmpty then .error .invalidValue else .ok ()
  | .number signed hi =>
    if (numberOf? signed hi value).isSome then .ok () else .error .valueValidation
  | _ => .ok ()

/-- Whether an option has a value. -/
def Role.takesValue : Role → Bool
  | .text => true
  | .path => true
  | .number _ _ => true
  | _ => false

/-- What was read so far: the options, and one whose value is awaited or not yet checked. -/
structure Progress where
  given : Given
  pending : Option (Flag × Option String)

def Progress.start : Progress := ⟨[], none⟩

/-- Whether the next word is a value. -/
def Progress.awaits (p : Progress) : Bool :=
  match p.pending with
  | some (_, none) => true
  | _ => false

/-- Adds an option with its value. -/
def Given.add (g : Given) (f : Flag) (value : String) : Except Refusal Given := do
  if g.has f.name then throw .argumentConflict
  f.role.check value
  return g ++ [(f.name, value)]

/-- Checks the option that is pending. -/
def Progress.settle (p : Progress) : Except Refusal Given :=
  match p.pending with
  | none => .ok p.given
  | some (_, none) => .error .invalidValue
  | some (f, some value) => p.given.add f value

/-- An option without a value. -/
def Progress.switch (p : Progress) (f : Flag) : Except Refusal Progress := do
  let g ← p.settle
  match f.role with
  | .help => throw .displayHelp
  | .version => throw .displayVersion
  | _ => return ⟨← g.add f "", none⟩

/-- An option with the value that is attached to it, or with the one to come. -/
def Progress.expect (p : Progress) (f : Flag) (attached : Option String) :
    Except Refusal Progress := do
  let g ← p.settle
  match attached with
  | some value => return ⟨← g.add f value, none⟩
  | none => return ⟨g, some (f, none)⟩

/-! ## Words -/

/-- The text before the first sign of equality, and the text behind it if there is one. -/
def splitEqual : List Char → List Char × Option (List Char)
  | [] => ([], none)
  | c :: r => if c = '=' then ([], some r) else ((splitEqual r).1.cons c, (splitEqual r).2)

/-- A word `--name` or `--name=value`, behind its dashes. -/
def readLong (flags : List Flag) (p : Progress) (word : List Char) : Except Refusal Progress :=
  let (name, attached) := splitEqual word
  match flags.find? fun f => f.name == String.ofList name with
  | none => .error .unknownArgument
  | some f =>
    if f.role.takesValue then p.expect f (attached.map String.ofList)
    else if attached.isSome then .error .tooManyValues
    else p.switch f

/-- A word of letters, behind its dash. -/
def readLetters (flags : List Flag) : Progress → List Char → Except Refusal Progress
  | p, [] => .ok p
  | p, c :: r =>
    match flags.find? fun f => f.letter == some c with
    | none => .error .unknownArgument
    | some f =>
      if f.role.takesValue then
        match r with
        | [] => p.expect f none
        | '=' :: value => p.expect f (some (String.ofList value))
        | value => p.expect f (some (String.ofList value))
      else do readLetters flags (← p.switch f) r

/-- A word in front of which nothing is an option. -/
def refuseWord (c : Command) (word : String) (bare : Bool) : Refusal :=
  if c.subcommands.isEmpty || (bare && c.subcommands.contains word) then .unknownArgument
  else .invalidSubcommand

/-- Reads the words of a command up to its subcommand; gives what was read, and the subcommand
    with the words behind it. -/
def readWords (c : Command) : Progress → List String →
    Except Refusal (Progress × Option (String × List String))
  | p, [] => .ok (p, none)
  | p, word :: rest =>
    if !p.awaits && c.subcommands.contains word then .ok (p, some (word, rest))
    else
      match word.toList with
      | ['-', '-'] =>
        match rest with
        | [] => .ok (p, none)
        | next :: _ => .error (refuseWord c next true)
      | '-' :: '-' :: long => do readWords c (← readLong c.flags p long) rest
      | '-' :: l :: letters => do readWords c (← readLetters c.flags p (l :: letters)) rest
      | _ =>
        match p.pending with
        | some (f, none) => readWords c ⟨p.given, some (f, some word)⟩ rest
        | _ => .error (refuseWord c word false)

/-! ## Help -/

/-- The answer to `help` with the names of subcommands behind it: of these one may be named, and
    none of it has subcommands of its own. -/
def readHelp (c : Command) : List String → Refusal
  | [] => .displayHelp
  | [name] => if c.subcommands.contains name then .displayHelp else .invalidSubcommand
  | _ => .invalidSubcommand

end Polyshell.CommandLine
