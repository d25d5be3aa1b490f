/-
  JSON text of a value: compact, or one member to a line.

  Both forms write the members in their order and escape the same characters: the quote, the
  backslash, and the controls below U+0020, five of which have a letter.  Everything else stands
  as itself, so a printed string holds no character below U+0020 and no quote of its own.  In the
  spread form each level is indented by two more spaces and an empty container stays on one line.
-/
import Polyshell.Json
import Polyshell.Double.Text

namespace Polyshell.Json

/-! ## Strings and numbers -/

/-- A hexadecimal digit. -/
def hexDigit (n : Nat) : Char := (Nat.digitChar n)

/-- How one character stands in a JSON string. -/
def escapeChar (c : Char) : List Char :=
  match c with
  | '"' => ['\\', '"']
  | '\\' => ['\\', '\\']
  | '\n' => ['\\', 'n']
  | '\r' => ['\\', 'r']
  | '\t' => ['\\', 't']
  | '\x08' => ['\\', 'b']
  | '\x0c' => ['\\', 'f']
  | c =>
    if c.toNat < 0x20 then
      ['\\', 'u', '0', '0', hexDigit (c.toNat / 16), hexDigit (c.toNat % 16)]
    else [c]

/-- A JSON string, quotes included. -/
def stringText (s : String) : List Char := '"' :: (s.toList.flatMap escapeChar ++ ['"'])

/-- The decimal text of a whole number. -/
def intText (i : Int) : List Char :=
  if i < 0 then '-' :: Decimal.digits i.natAbs else Decimal.digits i.natAbs

/-- The text of a number. -/
def Number.text : Number → List Char
  | .int i => intText i
  | .real x => x.inJson.toList

/-! ## Compact form -/

mutual

/-- A value without any space between tokens. -/
def compactText : Json → List Char
  | .null => "null".toList
  | .bool true => "true".toList
  | .bool false => "false".toList
  | .num n => n.text
  | .str s => stringText s
  | .arr items => '[' :: (compactItems items ++ [']'])
  | .obj members => '\x7b' :: (compactMembers members ++ ['\x7d'])

/-- The elements, with commas between them. -/
def compactItems : List Json → List Char
  | [] => []
  | [v] => compactText v
  | v :: w :: r => compactText v ++ ',' :: compactItems (w :: r)

/-- The members, with commas between them. -/
def compactMembers : List (String × Json) → List Char
  | [] => []
  | [(k, v)] => stringText k ++ ':' :: compactText v
  | (k, v) :: m :: r => stringText k ++ ':' :: (compactText v ++ ',' :: compactMembers (m :: r))

end

/-! ## Spread form -/

/-- A new line, indented for nesting depth `n`. -/
def indent (n : Nat) : List Char := '\n' :: List.replicate (2 * n) ' '

mutual

/-- A value with one element or member to a line, at nesting depth `n`. -/
def prettyText (n : Nat) : Json → List Char
  | .null => "null".toList
  | .bool true => "true".toList
  | .bool false => "false".toList
  | .num k => k.text
  | .str s => stringText s
  | .arr [] => ['[', ']']
  | .arr (v :: r) => '[' :: (prettyItems (n + 1) (v :: r) ++ indent n ++ [']'])
  | .obj [] => ['\x7b', '\x7d']
  | .obj (m :: r) => '\x7b' :: (prettyMembers (n + 1) (m :: r) ++ indent n ++ ['\x7d'])

/-- The elements, each on a line of its own. -/
def prettyItems (n : Nat) : List Json → List Char
  | [] => []
  | [v] => indent n ++ prettyText n v
  | v :: w :: r => indent n ++ (prettyText n v ++ ',' :: prettyItems n (w :: r))

/-- The members, each on a line of its own. -/
def prettyMembers (n : Nat) : List (String × Json) → List Char
  | [] => []
  | [(k, v)] => indent n ++ (stringText k ++ ':' :: ' ' :: prettyText n v)
  | (k, v) :: m :: r =>
    indent n ++ (stringText k ++ ':' :: ' ' :: (prettyText n v ++ ',' :: prettyMembers n (m :: r)))

end

/-- The compact text. -/
def compact (v : Json) : String := String.ofList (compactText v)

/-- The spread text. -/
def pretty (v : Json) : String := String.ofList (prettyText 0 v)

example : compact (.obj [("a", .arr [.num (.int 1), .null])]) = "\x7b\"a\":[1,null]\x7d" := by
  decide +kernel
example : pretty (.arr [.bool true, .arr []]) = "[\n  true,\n  []\n]" := by decide +kernel

end Polyshell.Json
