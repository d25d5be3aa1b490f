/-
  Arguments of shell calls.

  `Argument.ofText` reads the source text of one argument.  Names of values come first, then
  numbers, then a string literal, then literals and constructor calls, which are rewritten to
  strict JSON and read by its reader.  What is none of these is a bare identifier and stands for
  its own text.

  `toBson` is what reaches the server.  An object with the single key `$oid` (a text) or `$date` is
  an identifier or a date; objects inside others are converted alike.
-/
import Polyshell.Mongo.Literal
import Polyshell.Json.Reader
import Polyshell.Bson
import Polyshell.Calendar
import Polyshell.Text.Quoted

namespace Polyshell.Mongo

open Polyshell.Text

/-- A read argument. -/
inductive Argument where
  | null
  | undefined
  | bool (b : Bool)
  | number (n : Json.Number)
  | str (s : String)
  | object (members : List (String × Json))
  | array (items : List Json)
  /-- A bare identifier. -/
  | raw (s : String)
deriving Inhabited, Repr

/-! ## From JSON to BSON -/

/-- The date that the value of `$date` denotes. -/
def dateOfJson (v : Json) : Except ParseError Bson :=
  let invalid (reason : String) : Except ParseError Bson :=
    .error (.invalidLiteral ("ISODate(" ++ v.compact ++ ")") reason)
  match v with
  | .str s =>
    match Instant.read? s.toList with
    | some ms => .ok (.date ms)
    | none => invalid "expected an ISO-8601 date"
  | .num n =>
    match n.toInt64? with
    | some ms => .ok (.date ms)
    | none => invalid "expected milliseconds since the epoch"
  | _ => invalid "expected a string or number"

/-- The identifier that the value of `$oid` denotes. -/
def oidOfText (hex : String) : Except ParseError Bson :=
  match ObjectId.ofHex hex with
  | .ok id => .ok (.objectId id)
  | .error f => .error (.invalidLiteral ("ObjectId(\"" ++ hex ++ "\")") (f.message hex))

mutual

/-- The BSON value of a JSON value. -/
def bsonOfJson : Json → Except ParseError Bson
  | .null => .ok .null
  | .bool b => .ok (.bool b)
  | .num n => .ok (Bson.ofNumber n)
  | .str s => .ok (.str s)
  | .arr items => (bsonOfItems items).map .arr
  | .obj [("$oid", .str hex)] => oidOfText hex
  | .obj [("$date", v)] => dateOfJson v
  | .obj members => (bsonOfMembers members).map .doc

def bsonOfItems : List Json → Except ParseError (List Bson)
  | [] => .ok []
  | v :: r =>
    match bsonOfJson v with
    | .error e => .error e
    | .ok b => (bsonOfItems r).map (b :: ·)

def bsonOfMembers : List (String × Json) → Except ParseError (List (String × Bson))
  | [] => .ok []
  | (k, v) :: r =>
    match bsonOfJson v with
    | .error e => .error e
    | .ok b => (bsonOfMembers r).map ((k, b) :: ·)

end

namespace Argument

/-! ## Reading -/

/-- The beginnings of constructor calls that make an argument a literal. -/
def helperHeads : List String :=
  ["ObjectId(", "ISODate(", "new Date(", "Date(", "NumberInt(", "NumberLong("]

/-- Whether the text is read as a literal. -/
def isLiteral (text : List Char) : Bool :=
  text.head? == some '\x7b' || text.head? == some '[' ||
    helperHeads.any fun h => h.toList.isPrefixOf text

/-- A JSON value as an argument. -/
def ofJson : Json → Argument
  | .null => .null
  | .bool b => .bool b
  | .num n => .number n
  | .str s => .str s
  | .arr items => .array items
  | .obj members => .object members

/-- A literal: rewritten, then read as JSON.  Faults of the JSON are placed in the rewritten
    text. -/
def ofLiteral (ambient : Ambient) (text : List Char) : Except ParseError Argument :=
  match strictText ambient text with
  | .error e => .error e
  | .ok strict =>
    match Json.read strict with
    | .ok v => .ok (ofJson v)
    | .error f => .error (.invalidLiteral (String.ofList text) (f.message strict))

/-- The argument that a trimmed text writes. -/
def ofTrimmed (ambient : Ambient) (text : List Char) : Except ParseError Argument :=
  if text = "true".toList then .ok (.bool true)
  else if text = "false".toList then .ok (.bool false)
  else if text = "null".toList then .ok .null
  else if text = "undefined".toList then .ok .undefined
  else match number? text with
    | some n => .ok (.number n)
    | none =>
      match dequote? text with
      | some s => .ok (.str (String.ofList s))
      | none =>
        if isLiteral text then ofLiteral ambient text else .ok (.raw (String.ofList text))

/-- The argument that a text writes. -/
def ofText (ambient : Ambient) (text : List Char) : Except ParseError Argument :=
  ofTrimmed ambient (trim text)

/-! ## Views -/

/-- The kind of the argument in messages. -/
def kindName : Argument → String
  | .null => "null"
  | .undefined => "undefined"
  | .bool _ => "boolean"
  | .number _ => "number"
  | .str _ => "string"
  | .object _ => "object"
  | .array _ => "array"
  | .raw _ => "identifier"

/-- Null and undefined count as no argument. -/
def isAbsent : Argument → Bool
  | .null => true
  | .undefined => true
  | _ => false

/-- The text of a string or an identifier. -/
def text? : Argument → Option String
  | .str s => some s
  | .raw s => some s
  | _ => none

/-- A number without a fraction, held inside 64 bits. -/
def int64? : Argument → Option Int
  | .number n =>
    match n.toInt64? with
    | some i => some i
    | none =>
      if n.toDouble.toInt?.isSome then
        some (n.toDouble.clampToInt Decimal.minInt64 Decimal.maxInt64)
      else none
  | _ => none

def bool? : Argument → Option Bool
  | .bool b => some b
  | _ => none

/-- The argument as messages show it. -/
def shown : Argument → String
  | .null => "null"
  | .undefined => "undefined"
  | .bool b => toString b
  | .number n => String.ofList n.text
  | .str s => quote s
  | .object members => (Json.obj members).compact
  | .array items => (Json.arr items).compact
  | .raw s => s

/-! ## Conversion -/

/-- The argument as a BSON value. -/
def toBson : Argument → Except ParseError Bson
  | .null => .ok .null
  | .undefined => .ok .null
  | .bool b => .ok (.bool b)
  | .number n => .ok (Bson.ofNumber n)
  | .str s => .ok (.str s)
  | .raw s => .ok (.str s)
  | .object members => bsonOfJson (.obj members)
  | .array items => bsonOfJson (.arr items)

/-- The argument as a document; no argument is an empty one. -/
def toDocument (operation : String) (a : Argument) : Except ParseError Document :=
  if a.isAbsent then .ok []
  else match a.toBson with
    | .error e => .error e
    | .ok (.doc d) => .ok d
    | .ok _ => .error (.invalidArgument operation ("expected an object, got " ++ a.kindName))

end Argument
end Polyshell.Mongo
