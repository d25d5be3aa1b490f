/-
  Writing TOML text.

  A document is written section by section: first the entries of its own, then each table under a
  header, then the arrays of tables, every section in the order of the members and with an empty
  line between two of them.  Inside a section all values stand behind their keys, tables in braces;
  an array of tables that has no element yet is written as an empty array among the entries.
-/
import Polyshell.Toml.Scalar
import Polyshell.Toml.Quoted

namespace Polyshell.Toml

/-- A double. -/
def floatText (x : Double) : String :=
  if x.isNaN then "nan" else if x.isInfinite then x.signed "inf".toList else x.spelled

mutual

/-- A value behind its key. -/
def inline : Toml → String
  | .text s => quote s
  | .integer n => toString n
  | .float x => floatText x
  | .boolean b => if b then "true" else "false"
  | .moment s => s
  | .array items => "[" ++ ", ".intercalate (inlineItems items) ++ "]"
  | .table ms =>
    if ms.isEmpty then "\x7b\x7d" else "\x7b " ++ ", ".intercalate (inlineMembers ms) ++ " \x7d"

/-- Elements, one after another. -/
def inlineItems : List Toml → List String
  | [] => []
  | v :: vs => inline v :: inlineItems vs

/-- Entries, one after another. -/
def inlineMembers : List (String × Toml) → List String
  | [] => []
  | (k, v) :: ms => (k ++ " = " ++ inline v) :: inlineMembers ms

end

/-- The lines of entries. -/
def entryLines (ms : Members) : String := String.join ((inlineMembers ms).map (· ++ "\n"))

/-- Whether a member is a section of its own. -/
def isSection : Toml → Bool
  | .table _ => true
  | .array (.table _ :: _) => true
  | _ => false

/-- The sections that a member makes. -/
def sections (key : String) : Toml → List String
  | .table ms => ["[" ++ key ++ "]\n" ++ entryLines ms]
  | .array items => items.filterMap fun
    | .table ms => some ("[[" ++ key ++ "]]\n" ++ entryLines ms)
    | _ => none
  | _ => []

/-- A document. -/
def document (ms : Members) : String :=
  let entries := ms.filter fun m => !isSection m.2
  let own := if entries.isEmpty then [] else [entryLines entries]
  "\n".intercalate (own ++ (ms.filter fun m => isSection m.2).flatMap fun m => sections m.1 m.2)

example :
    document [("a", .table [("x", .integer 1)]), ("b", .array [])] = "b = []\n\n[a]\nx = 1\n" := by
  decide +kernel

end Polyshell.Toml
