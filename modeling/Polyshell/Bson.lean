/-
  BSON values: what requests and replies of a document server are made of.

  Whole numbers come in two widths, and doubles are a kind of their own; the conversions in this
  library decide between them, so the widths are constructors and not derived from the number.  A
  document is a list of members in order, filled by `Members.put` as JSON objects are.  Dates are
  milliseconds since 1970.  Bytes are kept in the base-64 text that Extended JSON carries them in,
  for no rule of the shell looks inside.
-/
import Polyshell.Json
import Polyshell.Bson.ObjectId
import Polyshell.Bson.Decimal128

namespace Polyshell

/-- A BSON value. -/
inductive Bson where
  | null
  | bool (b : Bool)
  | int32 (i : Int)
  | int64 (i : Int)
  | double (x : Double)
  | str (s : String)
  | objectId (id : ObjectId)
  | date (ms : Int)
  | arr (items : List Bson)
  | doc (members : List (String × Bson))
  | binary (subtype : Nat) (base64 : String)
  | decimal (d : Decimal128)
  | regex (pattern options : String)
  | code (source : String)
  | codeWithScope (source : String) (scope : List (String × Bson))
  | timestamp (time increment : Nat)
  | symbol (s : String)
  | undefined
  | minKey
  | maxKey
  | dbPointer (ns : String) (id : ObjectId)
deriving Inhabited, Repr

/-- The members of a document. -/
abbrev Document := List (String × Bson)

namespace Bson

/-- A whole number in the narrower width that holds it. -/
def ofInt (i : Int) : Bson :=
  if Decimal.minInt32 ≤ i && i ≤ Decimal.maxInt32 then .int32 i else .int64 i

/-- A JSON number: a whole number of 64 bits by its width, everything else as a double. -/
def ofNumber (n : Json.Number) : Bson :=
  match n.toInt64? with
  | some i => ofInt i
  | none => .double n.toDouble

def get? (key : String) (d : Document) : Option Bson := Members.find? key d

def toStr? : Bson → Option String
  | .str s => some s
  | _ => none

def toDoc? : Bson → Option Document
  | .doc d => some d
  | _ => none

def toArr? : Bson → Option (List Bson)
  | .arr a => some a
  | _ => none

/-- A whole number of either width. -/
def toInt? : Bson → Option Int
  | .int32 i => some i
  | .int64 i => some i
  | _ => none

end Bson
end Polyshell
