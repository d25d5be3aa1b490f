/-
  Reading TOML text.

  The text is cut into statements, each on its own line or lines, and the statements are put
  together by `Draft.add`.  Two things can go wrong: a line is no statement (`malformed`), or a
  statement contradicts an earlier one (`redefined`); the fault names the line on which the
  statement starts.

  Arrays and tables in braces may run over several lines, hold comments, and end in a comma.  Their
  nesting is the structural argument of `readValue?`; the elements of one of them are read by a
  loop over the rest of the text, whose length serves as fuel.
-/
import Polyshell.Toml.Scalar
import Polyshell.Toml.Quoted
import Polyshell.Toml.Tree

namespace Polyshell.Toml

/-! ## Blanks and comments -/

/-- The text behind the blanks of a line. -/
def skipGap (s : List Char) : List Char := s.dropWhile isGap

/-- The text behind blanks, line ends and comments. -/
def skipAll : (fuel : Nat) → List Char → List Char
  | 0, s => s
  | fuel + 1, s =>
    match afterLineEnd? s with
    | some r => skipAll fuel r
    | none =>
      match s with
      | [] => []
      | c :: r =>
        if isGap c then skipAll fuel r
        else if c = '#' then skipAll fuel (r.dropWhile isPlain)
        else s

/-- The text behind blanks, line ends and comments, however long they are. -/
def skipTrivia (s : List Char) : List Char := skipAll s.length s

/-- What is left behind a line on which no more than a comment follows. -/
def finishLine? (s : List Char) : Option (List Char) :=
  let r := match skipGap s with
    | '#' :: r => r.dropWhile isPlain
    | r => r
  if r.isEmpty then some [] else afterLineEnd? r

/-! ## Keys -/

/-- Characters of a key without quotes. -/
def isBare (c : Char) : Bool := c.isAlphanum || c = '_' || c = '-'

/-- One part of a key. -/
def readPart? (s : List Char) : Option (String × List Char) :=
  let bare := s.takeWhile isBare
  if bare.isEmpty then readKeyString? s else some (String.ofList bare, s.dropWhile isBare)

/-- A key: parts with points between them. -/
def readKey? : (fuel : Nat) → List Char → Option (Key × List Char)
  | 0, _ => none
  | fuel + 1, s => do
    let (part, r) ← readPart? (skipGap s)
    match skipGap r with
    | '.' :: r' =>
      let (k, rest) ← readKey? fuel r'
      return (⟨part :: k.before, k.last⟩, rest)
    | rest => return (⟨[], part⟩, rest)

/-- A key of any length. -/
def key? (s : List Char) : Option (Key × List Char) := readKey? (s.length + 1) s

/-! ## Values -/

/-- Where an unquoted value ends. -/
def endsRun (c : Char) : Bool :=
  isGap c || c = '\n' || c = '\r' || c = ',' || c = ']' || c = '\x7d' || c = '#' || c = '='

/-- Whether a time of day starts here. -/
def startsTime : List Char → Bool
  | a :: b :: ':' :: _ => Decimal.isDigit a && Decimal.isDigit b
  | _ => false

/-- The unquoted value that starts here.  A space between a date and a time belongs to it. -/
def readRun? (s : List Char) : Option (Toml × List Char) :=
  let run := s.takeWhile fun c => !endsRun c
  let rest := s.dropWhile fun c => !endsRun c
  let (run, rest) := match rest with
    | ' ' :: r =>
      if afterDate? run == some [] && startsTime r then
        (run ++ ' ' :: r.takeWhile fun c => !endsRun c, r.dropWhile fun c => !endsRun c)
      else (run, rest)
    | _ => (run, rest)
  (ofRun? run).map fun v => (v, rest)

/-- The elements of an array behind its bracket or a comma, up to and with the closing bracket. -/
def readItems? (item : List Char → Option (Toml × List Char)) : (fuel : Nat) → List Char →
    Option (List Toml × List Char)
  | 0, _ => none
  | fuel + 1, s =>
    match skipTrivia s with
    | ']' :: rest => some ([], rest)
    | first => do
      let (v, r) ← item first
      match skipTrivia r with
      | ']' :: rest => return ([v], rest)
      | ',' :: r' =>
        let (vs, rest) ← readItems? item fuel r'
        return (v :: vs, rest)
      | _ => none

/-- A key, its sign of equality, and its value. -/
def readPair? (item : List Char → Option (Toml × List Char)) (s : List Char) :
    Option ((Key × Toml) × List Char) := do
  let (k, r) ← key? s
  match skipGap r with
  | '=' :: r' =>
    let (v, rest) ← item (skipGap r')
    return ((k, v), rest)
  | _ => none

/-- The entries of a table in braces behind its brace or a comma, up to and with the closing
    brace. -/
def readEntries? (item : List Char → Option (Toml × List Char)) : (fuel : Nat) → List Char →
    Option (List (Key × Toml) × List Char)
  | 0, _ => none
  | fuel + 1, s =>
    match skipTrivia s with
    | '\x7d' :: rest => some ([], rest)
    | first => do
      let (e, r) ← readPair? item first
      match skipTrivia r with
      | '\x7d' :: rest => return ([e], rest)
      | ',' :: r' =>
        let (es, rest) ← readEntries? item fuel r'
        return (e :: es, rest)
      | _ => none

/-- The table that entries make. -/
def tableOf? (entries : List (Key × Toml)) : Option Toml :=
  (entries.foldlM (fun (d : Draft) e => d.add (.entry e.1 e.2)) Draft.start).map fun d =>
    .table d.members

/-- The value that starts here, with at most `depth` containers nested in it. -/
def readValue? : (depth : Nat) → List Char → Option (Toml × List Char)
  | depth, s =>
    match s with
    | [] => none
    | '[' :: r =>
      match depth with
      | 0 => none
      | depth + 1 => (readItems? (readValue? depth) (r.length + 1) r).map fun x => (.array x.1, x.2)
    | '\x7b' :: r =>
      match depth with
      | 0 => none
      | depth + 1 => do
        let (es, rest) ← readEntries? (readValue? depth) (r.length + 1) r
        return (← tableOf? es, rest)
    | c :: r =>
      if isQuote c then (readString? (c :: r)).map fun x => (.text x.1, x.2)
      else readRun? (c :: r)

/-- How deep containers may be nested. -/
def maxDepth : Nat := 80

/-! ## Documents -/

/-- What is wrong with a document. -/
inductive Cause where
  | malformed
  | redefined
deriving DecidableEq, Repr

/-- A cause, and the line of the statement; lines start at 1. -/
structure Fault where
  cause : Cause
  line : Nat
deriving DecidableEq, Repr

/-- The fault in words. -/
def Fault.message (f : Fault) : String :=
  let what := match f.cause with
    | .malformed => "not a TOML statement"
    | .redefined => "defined a second time"
  what ++ " at line " ++ toString f.line

/-- The name in a header behind its opening brackets, and the text behind its closing ones. -/
def readName? (closing : List Char) (s : List Char) : Option (Key × List Char) := do
  let (k, r) ← key? s
  let r := skipGap r
  guard (closing.isPrefixOf r)
  return (k, r.drop closing.length)

/-- The statement that starts here, and the text behind it. -/
def readOne? : List Char → Option (Statement × List Char)
  | '[' :: '[' :: r => (readName? [']', ']'] r).map fun x => (.element x.1, x.2)
  | '[' :: r => (readName? [']'] r).map fun x => (.header x.1, x.2)
  | s => (readPair? (readValue? maxDepth) s).map fun e => (.entry e.1.1 e.1.2, e.2)

/-- The statement that starts here, and the text from the next line on. -/
def readStatement? (s : List Char) : Option (Statement × List Char) := do
  let (statement, r) ← readOne? s
  let rest ← finishLine? r
  return (statement, rest)

/-- The statements of a text, put together on top of `d`; `lines` counts the lines of the whole
    text. -/
def readStatements (lines : Nat) : (fuel : Nat) → Draft → List Char → Except Fault Draft
  | 0, d, _ => .ok d
  | fuel + 1, d, s =>
    match skipTrivia s with
    | [] => .ok d
    | first =>
      let line := 1 + lines - first.count '\n'
      match readStatement? first with
      | none => .error ⟨.malformed, line⟩
      | some (statement, rest) =>
        match d.add statement with
        | none => .error ⟨.redefined, line⟩
        | some d' => readStatements lines fuel d' rest

/-- The table that a text holds. -/
def read (text : List Char) : Except Fault Members := do
  let s := match text with
    | '\uFEFF' :: r => r
    | s => s
  let d ← readStatements (s.count '\n') (s.length + 1) Draft.start s
  return d.members

end Polyshell.Toml
