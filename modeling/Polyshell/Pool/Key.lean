/-
  What a pooled connection is identified by.

  Two requests share a connection exactly when their keys are equal; in particular the keys of two
  sessions are different, for each session selects databases of its own.  A password is part of the
  key and is never shown: both texts of a key leave it out.
-/
import Polyshell.Backend
import Polyshell.Text.Quoted
import Polyshell.Decimal.Whole

namespace Polyshell

/-- A text that is not shown. -/
structure Secret where
  reveal : String
deriving DecidableEq, Inhabited

/-- What stands for a secret. -/
def Secret.mask : String := "Secret(****)"

/-- The identity of a connection. -/
structure PoolKey where
  backend : Backend
  host : String
  port : Nat
  username : Option String
  password : Option Secret
  /-- The database that is selected when the connection is opened. -/
  database : Option String
  /-- The session that the connection belongs to. -/
  session : Option String
deriving DecidableEq, Inhabited

namespace PoolKey

/-- Host and port. -/
def address (k : PoolKey) : String := k.host ++ ":" ++ toString k.port

/-- An optional part with what goes before and behind it. -/
def part (before : String) (text : Option String) (behind : String) : String :=
  match text with
  | some t => before ++ t ++ behind
  | none => ""

/-- The key in messages. -/
def display (k : PoolKey) : String :=
  k.backend.scheme ++ "://" ++ part "" k.username "@" ++ k.address ++ part "/" k.database "" ++
    part "#" k.session ""

end PoolKey

/-! ## Debugging output -/

namespace Inspect

/-- An optional value whose text is given. -/
def option (text : Option String) : String :=
  match text with
  | some t => "Some(" ++ t ++ ")"
  | none => "None"

/-- An optional text, quoted. -/
def optionText (text : Option String) : String := option (text.map Text.quote)

/-- An optional secret. -/
def optionSecret (s : Option Secret) : String := option (s.map fun _ => Secret.mask)

/-- Named fields in braces behind the name of their type. -/
def record (name : String) (fields : List (String × String)) : String :=
  name ++ " \x7b " ++ ", ".intercalate (fields.map fun f => f.1 ++ ": " ++ f.2) ++ " \x7d"

end Inspect

/-- All fields of the key, the password masked. -/
def PoolKey.inspect (k : PoolKey) : String :=
  Inspect.record "PoolKey"
    [("backend", k.backend.variantName), ("host", Text.quote k.host), ("port", toString k.port),
      ("username", Inspect.optionText k.username), ("password", Inspect.optionSecret k.password),
      ("database", Inspect.optionText k.database), ("session_id", Inspect.optionText k.session)]

end Polyshell
