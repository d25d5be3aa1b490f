/-
  BSON values inside messages.

  Where a message quotes a document, it shows it in a notation of its own: members in braces with
  spaces inside, strings between quotes but not escaped, doubles without a needless point, and the
  kinds that have no literal by name.
-/
import Polyshell.Bson
import Polyshell.Calendar
import Polyshell.Double.Text

namespace Polyshell.Bson

/-- A list of texts with a comma and a space between them. -/
def commaSeparated (items : List String) : String := ", ".intercalate items

/-- The parts of a document between its braces. -/
def braced (members : List String) : String :=
  if members.isEmpty then "\x7b\x7d" else "\x7b " ++ commaSeparated members ++ " \x7d"

mutual

/-- A value as messages show it. -/
def shown : Bson → String
  | .null => "null"
  | .bool b => toString b
  | .int32 i => toString i
  | .int64 i => toString i
  | .double x => x.plain
  | .str s => "\"" ++ s ++ "\""
  | .objectId id => "ObjectId(\"" ++ id.toHex ++ "\")"
  | .date ms => "DateTime(\"" ++ Instant.spaced ms ++ "\")"
  | .arr items => "[" ++ commaSeparated (shownItems items) ++ "]"
  | .doc members => braced (shownMembers members)
  | .binary t b => "Binary(0x" ++ String.ofList (Nat.toDigits 16 t) ++ ", " ++ b ++ ")"
  | .decimal d => d.text
  | .regex p o => "/" ++ p ++ "/" ++ o
  | .code c => c
  | .codeWithScope c _ => c
  | .timestamp t i => "Timestamp(" ++ toString t ++ ", " ++ toString i ++ ")"
  | .symbol s => "Symbol(\"" ++ s ++ "\")"
  | .undefined => "undefined"
  | .minKey => "MinKey"
  | .maxKey => "MaxKey"
  | .dbPointer ns id => "DbPointer(" ++ ns ++ ", ObjectId(\"" ++ id.toHex ++ "\"))"

def shownItems : List Bson → List String
  | [] => []
  | v :: r => shown v :: shownItems r

def shownMembers : List (String × Bson) → List String
  | [] => []
  | (k, v) :: r => ("\"" ++ k ++ "\": " ++ shown v) :: shownMembers r

end

end Polyshell.Bson
