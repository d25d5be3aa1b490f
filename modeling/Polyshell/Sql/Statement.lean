/-
  What a SQL statement does, as far as its first word tells.

  Statements go to the server as they are.  Their first word decides whether rows come back and
  whether the database of the session changes; the name in a `USE` statement is the fallback for
  what the server says is selected afterwards.
-/
import Polyshell.Text.Blank

namespace Polyshell.Sql

open Polyshell.Text

/-- The kinds of statements that are told apart. -/
inductive StatementKind where
  | query
  | update
  | insert
  | delete
  | use
  | other
deriving DecidableEq, Repr, Inhabited

namespace StatementKind

def name : StatementKind → String
  | .query => "query"
  | .update => "update"
  | .insert => "insert"
  | .delete => "delete"
  | .use => "use"
  | .other => "other"

/-- Only a query answers with rows. -/
def returnsRows (k : StatementKind) : Bool := k == .query

end StatementKind

/-- The text with ASCII letters in lower case. -/
def asciiLower (s : List Char) : String := String.ofList (s.map Char.toLower)

/-- The first word: it ends at a blank, a semicolon or an opening parenthesis. -/
def firstWord (sql : List Char) : List Char :=
  (trim sql).takeWhile fun c => !(isBlank c || c = ';' || c = '(')

/-- The kind that a first word stands for. -/
def kindOfWord (word : String) : StatementKind :=
  if word = "select" || word = "show" || word = "desc" then .query
  else if word = "update" then .update
  else if word = "insert" then .insert
  else if word = "delete" then .delete
  else if word = "use" then .use
  else .other

/-- The kind of a statement. -/
def classify (sql : String) : StatementKind := kindOfWord (asciiLower (firstWord sql.toList))

/-- The text without the characters `c` at its end. -/
def dropTrailing (c : Char) (s : List Char) : List Char := (s.reverse.dropWhile (· == c)).reverse

/-- The text without the characters `c` at both ends. -/
def strip (c : Char) (s : List Char) : List Char := dropTrailing c (s.dropWhile (· == c))

/-- The text in front of the first blank and behind it. -/
def cutBlank : List Char → Option (List Char × List Char)
  | [] => none
  | c :: r => if isBlank c then some ([], r) else (cutBlank r).map fun p => (c :: p.1, p.2)

/-- The database that a `USE` statement names, without quotes. -/
def useTarget (sql : String) : Option String :=
  match cutBlank (trim (dropTrailing ';' (trim sql.toList))) with
  | none => none
  | some (keyword, rest) =>
    if asciiLower keyword = "use" then
      let name := strip '`' (trim rest)
      if name.isEmpty then none else some (String.ofList name)
    else none

/-- The database of the session behind a statement, if that changed: what the server says is
    selected, or else what the statement named. -/
def changedDatabase (kind : StatementKind) (sql : String) (selected : Option String) :
    Option String :=
  if kind = .use then selected <|> useTarget sql else none

example : classify "  SELECT(1)" = .query ∧ classify "use;" = .use := by decide +kernel
example : useTarget "USE `shop` ; " = some "shop" := by decide +kernel

end Polyshell.Sql
