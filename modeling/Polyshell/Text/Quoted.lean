/-
  Quoted texts: what the shell shows when it must make plain where a text begins and ends.

  `quote` puts double quotes around a text and replaces every character that could be misread:
  the quote and the backslash themselves, the four controls that have a letter, and the hidden
  characters (`Polyshell.Text.isHidden`), which are shown by number as `\u` and braces.  A single
  quote stays as it is, for the surrounding quotes are double.
-/
import Polyshell.Text.Hidden

namespace Polyshell.Text

/-- The lower-case hexadecimal digits of `n`, most significant first, at least one. -/
def hexDigits (n : Nat) : List Char := Nat.toDigits 16 n

/-- How one character stands inside quotes. -/
def quoteChar (c : Char) : List Char :=
  match c with
  | '"' => ['\\', '"']
  | '\\' => ['\\', '\\']
  | '\n' => ['\\', 'n']
  | '\r' => ['\\', 'r']
  | '\t' => ['\\', 't']
  | '\x00' => ['\\', '0']
  | c => if isHidden c then '\\' :: 'u' :: '\x7b' :: (hexDigits c.toNat ++ ['\x7d']) else [c]

/-- The text between double quotes. -/
def quote (s : String) : String :=
  String.ofList ('"' :: (s.toList.flatMap quoteChar ++ ['"']))

example : quote "a\"b\\c\n" = "\"a\\\"b\\\\c\\n\"" := by decide +kernel
example : quote "\x01'" = "\"\\u\x7b1\x7d'\"" := by decide +kernel

end Polyshell.Text
