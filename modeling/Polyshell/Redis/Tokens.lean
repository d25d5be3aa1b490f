/-
  The words of a key-value command line.

  Blanks divide words; a quote of either kind holds everything up to the next quote of its kind
  together and is not itself part of the word.  A quote that is left open reaches to the end of the
  line.  An empty pair of quotes is a word of its own, so a word is given up only where nothing was
  read and nothing was quoted.
-/
import Polyshell.Text.Blank

namespace Polyshell.Redis

open Polyshell.Text

/-- The words of the rest of a line.  `quote` is the quote that is open, `current` the word so far
    with its last character first, `quoted` whether a quote belongs to it. -/
def tokensFrom (quote : Option Char) (current : List Char) (quoted : Bool) :
    List Char → List (List Char)
  | [] => if quoted || !current.isEmpty then [current.reverse] else []
  | c :: r =>
    match quote with
    | some q =>
      if c = q then tokensFrom none current quoted r
      else tokensFrom quote (c :: current) quoted r
    | none =>
      if c = '"' || c = '\'' then tokensFrom (some c) current true r
      else if isBlank c then
        if quoted || !current.isEmpty then current.reverse :: tokensFrom none [] false r
        else tokensFrom none [] false r
      else tokensFrom none (c :: current) quoted r

/-- The words of a line. -/
def tokenize (line : String) : List String :=
  (tokensFrom none [] false line.toList).map String.ofList

/-- The index that a `SELECT` command names, as it is written. -/
def selectIndex (tokens : List String) : Option String :=
  match tokens with
  | [name, index] =>
    if name.toList.map Char.toLower = "select".toList then some (trimmed index) else none
  | _ => none

/-- What the prompt shows for the database that a `SELECT` command names. -/
def selectedDatabase (tokens : List String) : Option String :=
  (selectIndex tokens).map fun index => "[db" ++ index ++ "]"

example : tokenize "SET k 'a b' \"\"" = ["SET", "k", "a b", ""] := by decide +kernel
example : selectedDatabase ["Select", " 3 "] = some "[db3]" := by decide +kernel

end Polyshell.Redis
