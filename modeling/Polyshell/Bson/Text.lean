/-
  How the shell prints a value that a document server answered.

  Null, strings, booleans and numbers stand for themselves.  Everything else is relaxed Extended
  JSON, spread over lines; so identifiers and dates appear in their wrappers.
-/
import Polyshell.Bson.Extended
import Polyshell.Json.Printer

namespace Polyshell.Bson

/-- The printed form of a value. -/
def text : Bson → String
  | .null => "null"
  | .undefined => "null"
  | .str s => s
  | .bool b => toString b
  | .int32 i => toString i
  | .int64 i => toString i
  | .double x => x.plain
  | v => v.relaxed.pretty

example : text (.arr []) = "[]" := by decide +kernel
example : text (.doc [("a", .int32 1)]) = "\x7b\n  \"a\": 1\n\x7d" := by decide +kernel

end Polyshell.Bson
