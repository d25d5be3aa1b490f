/-
  What a server said when it refused an operation.

  The parts are optional, since no two servers report the same ones.  `ErrorInfo.toJson` is the
  record for other programs: absent parts are left out, the order is fixed.  `ServerError.message`
  is the text for the user: it names the server, then what identifies the error, its message, the
  details in parentheses and the statement on a line of its own.
-/
import Polyshell.Backend
import Polyshell.Bson.Shown
import Polyshell.Bson.Extended
import Polyshell.Json.Printer

namespace Polyshell

/-- Where in the data a write failed. -/
structure ErrorDetails where
  collection : Option String
  index : Option String
  key : Option Document
deriving Inhabited

/-- The parts of an error report. -/
structure ErrorInfo where
  kind : Option String
  code : Option Int
  name : Option String
  message : Option String
  details : Option ErrorDetails
deriving Inhabited

namespace ErrorDetails

def empty : ErrorDetails := ⟨none, none, none⟩

def isEmpty (d : ErrorDetails) : Bool := d.collection.isNone && d.index.isNone && d.key.isNone

/-- The details that are there, by name. -/
def text (d : ErrorDetails) : String :=
  ", ".intercalate <|
    (d.collection.map ("collection: " ++ ·)).toList ++ (d.index.map ("index: " ++ ·)).toList ++
      (d.key.map fun k => "key: " ++ (Bson.doc k).shown).toList

end ErrorDetails

/-! ## The record -/

namespace Bson

/-- A double as a JSON number; there is none for what is not finite. -/
def doublePlain (x : Double) : Json := if x.isFinite then .num (.real x) else .null

mutual

/-- A value inside an error record: numbers are bare, dates are counts of milliseconds. -/
def plain : Bson → Json
  | .double x => doublePlain x
  | .date ms => millisJson ms
  | .arr items => .arr (plainItems items)
  | .doc members => .obj (plainMembers members)
  | v => v.relaxed

def plainItems : List Bson → List Json
  | [] => []
  | v :: r => plain v :: plainItems r

def plainMembers : List (String × Bson) → List (String × Json)
  | [] => []
  | (k, v) :: r => (k, plain v) :: plainMembers r

end

end Bson

/-- The members whose value is there. -/
def presentMembers (members : List (String × Option Json)) : Json :=
  .obj (members.filterMap fun m => m.2.map fun v => (m.1, v))

def ErrorDetails.toJson (d : ErrorDetails) : Json :=
  presentMembers
    [("collection", d.collection.map .str), ("index", d.index.map .str),
      ("key", d.key.map fun k => (Bson.doc k).plain)]

namespace ErrorInfo

def empty : ErrorInfo := ⟨none, none, none, none, none⟩

/-- A report with a kind and a message only. -/
def ofMessage (kind message : String) : ErrorInfo :=
  { empty with kind := some kind, message := some message }

/-- The record for other programs. -/
def toJson (i : ErrorInfo) : Json :=
  presentMembers
    [("type", i.kind.map .str), ("code", i.code.map .ofInt), ("name", i.name.map .str),
      ("message", i.message.map .str), ("details", i.details.map ErrorDetails.toJson)]

/-- The record as one line. -/
def json (i : ErrorInfo) : String := i.toJson.compact

/-- The details worth showing. -/
def shownDetails (i : ErrorInfo) : Option ErrorDetails := i.details.filter fun d => !d.isEmpty

end ErrorInfo

/-! ## The text -/

/-- An operation that a server refused. -/
structure ServerError where
  backend : Backend
  info : ErrorInfo
  /-- The statement, where there is one. -/
  statement : Option String
deriving Inhabited

namespace ServerError

/-- The server, and what identifies the error: a name is shown only next to a code. -/
def heading (e : ServerError) : String :=
  match e.info.name, e.info.code with
  | some name, some code => e.backend.scheme ++ " error " ++ name ++ " (" ++ toString code ++ ")"
  | none, some code => e.backend.scheme ++ " error " ++ toString code
  | _, none => e.backend.scheme ++ " error"

/-- The text for the user. -/
def message (e : ServerError) : String :=
  e.heading ++ ": " ++ e.info.message.getD "unknown error" ++
    (match e.info.shownDetails with
      | some d => " (" ++ d.text ++ ")"
      | none => "") ++
    (match e.statement with
      | some s => "\nStatement: " ++ s
      | none => "")

end ServerError
end Polyshell
