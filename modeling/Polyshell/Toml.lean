/-
  TOML data: what a configuration file holds.

  A document is a table; a table keeps its members in the order in which they were first named.
  Whole numbers are not bound to a word size here: the reader of a setting knows its range.  Dates
  and times are kept as they are written, for nothing in a configuration looks into them.
-/
import Polyshell.Double

namespace Polyshell

/-- A value of a TOML document. -/
inductive Toml where
  | text (s : String)
  | integer (n : Int)
  | float (x : Double)
  | boolean (b : Bool)
  /-- A date, a time, or both. -/
  | moment (spelled : String)
  | array (items : List Toml)
  | table (members : List (String × Toml))
deriving Inhabited, Repr

namespace Toml

/-- The members of a table. -/
abbrev Members := List (String × Toml)

/-- The value under a key. -/
def find? (ms : Members) (key : String) : Option Toml := (ms.find? fun m => m.1 == key).map (·.2)

/-- The values of the fields `names`: a table gives them by name, an array by position. -/
def fields? (names : List String) : Toml → Option Members
  | .table ms => some ms
  | .array items => some (names.zip items)
  | _ => none

/-- A text. -/
def text? : Toml → Option String
  | .text s => some s
  | _ => none

/-- A truth value. -/
def boolean? : Toml → Option Bool
  | .boolean b => some b
  | _ => none

/-- A whole number from 0 to `hi`. -/
def natural? (hi : Nat) : Toml → Option Nat
  | .integer n => if 0 ≤ n && n ≤ hi then some n.toNat else none
  | _ => none

/-- One of a few names: a text, or the only key of a table that holds nothing else under it. -/
def name? : Toml → Option String
  | .text s => some s
  | .table [(key, .table [])] => some key
  | .table [(key, .array [])] => some key
  | _ => none

end Toml
end Polyshell
