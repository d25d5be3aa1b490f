/-
  The kinds of server that the shell talks to.

  A kind has two names of its own: the one it is configured by (`configName`) and the scheme it is
  shown by (`scheme`).  It is read from either, and from some shorter ones, in any case of letters
  and with blanks around.
-/
import Polyshell.Text.Blank
import Polyshell.Text.Lowercase

namespace Polyshell

/-- A kind of server. -/
inductive Backend where
  /-- SQL tables. -/
  | relational
  /-- Keys and values. -/
  | keyValue
  /-- Collections of documents. -/
  | document
deriving DecidableEq, Repr, Inhabited

namespace Backend

/-- The port that a server of this kind listens on by default. -/
def defaultPort : Backend → Nat
  | .relational => 3306
  | .keyValue => 6379
  | .document => 27017

/-- The scheme in front of an address; it also names the kind in messages. -/
def scheme : Backend → String
  | .relational => "mysql"
  | .keyValue => "redis"
  | .document => "mongodb"

/-- The name in a configuration. -/
def configName : Backend → String
  | .relational => "relational"
  | .keyValue => "keyvalue"
  | .document => "document"

/-- The name in debugging output. -/
def variantName : Backend → String
  | .relational => "Relational"
  | .keyValue => "KeyValue"
  | .document => "Document"

/-- All names that a configuration may use. -/
def names : Backend → List String
  | .relational => ["relational", "mysql", "sql"]
  | .keyValue => ["keyvalue", "redis"]
  | .document => ["document", "mongodb", "mongo"]

/-- The kind with exactly that name. -/
def ofName? (name : String) : Option Backend :=
  [relational, keyValue, document].find? fun b => b.names.contains name

/-- The kind that a text names, or the text as it was looked up. -/
def parse (text : String) : Except String Backend :=
  let name := Text.lowercase (Text.trimmed text)
  match ofName? name with
  | some b => .ok b
  | none => .error name

/-- Its scheme and its configured name both read back. -/
theorem ofName?_scheme (b : Backend) : ofName? b.scheme = some b ∧ ofName? b.configName = some b := by
  cases b <;> decide

end Backend
end Polyshell
