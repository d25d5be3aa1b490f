/-
  TOML strings.

  A string stands between double or single quotes, and between three of either it may have several
  lines.  Between double quotes a backslash makes an escape; between three of them it also joins
  two lines when it ends the first.  A line feed right behind three opening quotes is not part of
  the string, and up to two quotes right before the three closing ones are.

  `quote` chooses the plainest form that a text has: double quotes when nothing in it needs an
  escape, else single quotes, else three double quotes, else three single ones; a text that none
  of them can hold is written with escapes.
-/
import Polyshell.Toml
import Polyshell.Text.Utf8

namespace Polyshell.Toml

open Polyshell.Text.Utf8 (hexValue?)

/-! ## Reading -/

/-- Characters that stand for themselves on a line: all but the controls, of which only the
    tabulator does. -/
def isPlain (c : Char) : Bool := c = '\t' || (0x20 ≤ c.toNat && c.toNat ≠ 0x7F)

/-- The character with the number that `k` hexadecimal digits give. -/
def hexChar? (k : Nat) (s : List Char) : Option (Char × List Char) := do
  let ds ← (s.take k).mapM hexValue?
  let n := ds.foldl (fun n d => 16 * n + d) 0
  if ds.length = k && n.isValidChar then some (Char.ofNat n, s.drop k) else none

/-- The character that an escape stands for, behind the backslash. -/
def readEscape? : List Char → Option (Char × List Char)
  | 'b' :: r => some ('\x08', r)
  | 't' :: r => some ('\t', r)
  | 'n' :: r => some ('\n', r)
  | 'f' :: r => some ('\x0c', r)
  | 'r' :: r => some ('\r', r)
  | 'e' :: r => some ('\x1b', r)
  | '"' :: r => some ('"', r)
  | '\\' :: r => some ('\\', r)
  | 'x' :: r => hexChar? 2 r
  | 'u' :: r => hexChar? 4 r
  | 'U' :: r => hexChar? 8 r
  | _ => none

/-- What is left behind the end of a line. -/
def afterLineEnd? : List Char → Option (List Char)
  | '\n' :: r => some r
  | '\r' :: '\n' :: r => some r
  | _ => none

/-- The blanks inside a line. -/
def isGap (c : Char) : Bool := c = ' ' || c = '\t'

/-- What is left behind a joint of two lines: the rest of the first line is blank, and the blanks
    and empty lines in front of the next text fall away too. -/
def afterJoint? (s : List Char) : Option (List Char) :=
  (afterLineEnd? (s.dropWhile isGap)).map fun r =>
    r.dropWhile fun c => isGap c || c = '\n' || c = '\r'

/-- A string of one line behind its opening quote `q`, and what is left behind the closing one. -/
def readLine? (q : Char) : (fuel : Nat) → List Char → Option (List Char × List Char)
  | 0, _ => none
  | _, [] => none
  | fuel + 1, c :: r =>
    if c = q then some ([], r)
    else if c = '\\' && q = '"' then do
      let (e, r) ← readEscape? r
      let (cs, rest) ← readLine? q fuel r
      return (e :: cs, rest)
    else if isPlain c then do
      let (cs, rest) ← readLine? q fuel r
      return (c :: cs, rest)
    else none

/-- The end of a string of several lines: at least three quotes, of which the last three close it
    and at most two more belong to it. -/
def closing? (q : Char) (s : List Char) : Option (List Char × List Char) :=
  let run := (s.takeWhile (· = q)).length
  if run < 3 then none
  else
    let kept := min (run - 3) 2
    some (List.replicate kept q, s.drop (3 + kept))

/-- A string of several lines behind its three opening quotes `q`. -/
def readLines? (q : Char) : (fuel : Nat) → List Char → Option (List Char × List Char)
  | 0, _ => none
  | _, [] => none
  | fuel + 1, c :: r =>
    match closing? q (c :: r) with
    | some ends => some ends
    | none =>
      if c = '\\' && q = '"' then
        match afterJoint? r with
        | some r => readLines? q fuel r
        | none => do
          let (e, r) ← readEscape? r
          let (cs, rest) ← readLines? q fuel r
          return (e :: cs, rest)
      else if isPlain c || (afterLineEnd? (c :: r)).isSome then do
        let (cs, rest) ← readLines? q fuel r
        return (c :: cs, rest)
      else none

/-- Whether `c` opens a string. -/
def isQuote (c : Char) : Bool := c = '"' || c = '\''

/-- The string that starts here. -/
def readString? (s : List Char) : Option (String × List Char) :=
  match s with
  | [] => none
  | q :: r =>
    if !isQuote q then none
    else
      let found :=
        if r.take 2 = [q, q] then
          let body := r.drop 2
          readLines? q s.length ((afterLineEnd? body).getD body)
        else readLine? q s.length r
      found.map fun f => (String.ofList f.1, f.2)

/-- The string of one line that starts here, as keys are written. -/
def readKeyString? (s : List Char) : Option (String × List Char) :=
  match s with
  | [] => none
  | q :: r =>
    if isQuote q then (readLine? q s.length r).map fun f => (String.ofList f.1, f.2) else none

/-! ## Writing -/

/-- The longest run of `q` in a text; `run` counts the one that is under way. -/
def longestRun (q : Char) (run : Nat) : List Char → Nat
  | [] => run
  | c :: r => if c = q then longestRun q (run + 1) r else max run (longestRun q 0 r)

/-- Characters that only an escape can write: the controls, but for the tabulator and the line
    feed. -/
def needsEscape (c : Char) : Bool := !isPlain c && c ≠ '\n'

/-- A character as an escape. -/
def escape (c : Char) : List Char :=
  match c with
  | '\x08' => ['\\', 'b']
  | '\t' => ['\\', 't']
  | '\n' => ['\\', 'n']
  | '\x0c' => ['\\', 'f']
  | '\r' => ['\\', 'r']
  | '"' => ['\\', '"']
  | '\\' => ['\\', '\\']
  | c =>
    let ds := (Nat.toDigits 16 c.toNat).map Char.toUpper
    '\\' :: 'u' :: (List.replicate (4 - ds.length) '0' ++ ds)

/-- A text between double quotes, one or three of them: what cannot stand there is escaped, and so
    is every double quote that would follow `room` others.  `run` counts those right before. -/
def escaped (room : Nat) (run : Nat) : List Char → List Char
  | [] => []
  | c :: r =>
    if c = '"' then
      if run < room then c :: escaped room (run + 1) r else escape c ++ escaped room 0 r
    else if c = '\n' && room ≠ 0 then c :: escaped room 0 r
    else if c = '\t' || c = '\\' || c = '\n' || needsEscape c then escape c ++ escaped room 0 r
    else c :: escaped room 0 r

/-- Three quotes around a text of one or several lines; a line feed follows the opening ones when
    the text has several. -/
def tripled (q : Char) (several : Bool) (body : List Char) : String :=
  String.ofList ([q, q, q] ++ (if several then ['\n'] else []) ++ body ++ [q, q, q])

/-- A text as a string. -/
def quote (s : String) : String :=
  let cs := s.toList
  let controls := cs.any needsEscape
  let several := cs.contains '\n'
  let backslash := cs.contains '\\'
  let doubles := longestRun '"' 0 cs
  let singles := longestRun '\'' 0 cs
  let plainly := String.ofList ('"' :: (escaped 0 0 cs ++ ['"']))
  if !controls && !backslash && doubles = 0 && !several then plainly
  else if !controls && singles = 0 && !several then String.ofList ('\'' :: (cs ++ ['\'']))
  else if !controls && !backslash && doubles ≤ 2 then tripled '"' several (escaped 2 0 cs)
  else if !controls && singles ≤ 2 then tripled '\'' several cs
  else if several then tripled '"' several (escaped 2 0 cs)
  else plainly

example : quote "a'b" = "\"a'b\"" ∧ quote "a\"b" = "'a\"b'" := by decide +kernel
example : quote "a\"'" = "\"\"\"a\"'\"\"\"" ∧ quote "\\'" = "'''\\''''" := by decide +kernel
example : readString? "\"\"\"\n a\\\n  b\"\"\"\" x".toList = some (" ab\"", " x".toList) := by
  decide +kernel
example : readString? "'a\\n' ".toList = some ("a\\n", [' ']) := by decide +kernel

end Polyshell.Toml
