/-
  Queries under construction.

  `find`, `findOne` and `findById` start a query; every method chained onto them changes one part of
  it.  A chain is applied from left to right and stops at the first call that has no meaning;
  `applyChain` gives the query as far as it got, together with what stopped it.

  Sort orders and projections can be written as a list of field names in one string, a hyphen in
  front of a name turning it around (`fieldList`).
-/
import Polyshell.Mongo.Command
import Polyshell.Error

namespace Polyshell.Mongo

open Polyshell.Text

/-- A request to replace references by what they refer to. -/
structure Populate where
  /-- The field with the references. -/
  path : String
  /-- The collection that they refer into. -/
  model : Option String
  /-- What to keep of the documents referred to. -/
  select : Option Document
deriving Inhabited

/-- What is asked for in place of the documents. -/
inductive Terminal where
  | count
  | distinct (field : String)
deriving DecidableEq, Repr

/-- A query. -/
structure Query where
  filter : Document
  /-- Only the first match is wanted. -/
  single : Bool
  projection : Option Document
  sort : Option Document
  skip : Option Nat
  limit : Option Int
  /-- Plain documents are wanted; nothing depends on it. -/
  lean : Bool
  populate : List Populate
  terminal : Option Terminal
deriving Inhabited

/-- An argument that is missing or of the wrong kind. -/
def badArgument {α : Type} (operation problem : String) : Except ShellError α :=
  .error (.parse (.invalidArgument operation problem))

/-- A fault of reading among the errors of all stages. -/
def ofParse {α : Type} : Except ParseError α → Except ShellError α
  | .ok x => .ok x
  | .error e => .error (.parse e)

/-! ## Arguments -/

/-- One word of a field list: its name and its value. -/
def fieldEntry (plus minus : Int) (word : List Char) : String × Bson :=
  match word with
  | '-' :: name => (String.ofList name, .int32 minus)
  | _ => (String.ofList (word.dropWhile (· == '+')), .int32 plus)

/-- The document that a list of field names stands for. -/
def fieldList (plus minus : Int) (text : String) : Document :=
  Members.ofList ((words text.toList).map (fieldEntry plus minus))

/-- A projection: a document, or a list of the fields to keep or to leave out. -/
def projectionOf (operation : String) (a : Argument) : Except ShellError Document :=
  match a.text? with
  | some t => .ok (fieldList 1 0 t)
  | none => ofParse (a.toDocument operation)

/-- A sort order: a document, or a list of fields. -/
def sortOf (a : Argument) : Except ShellError Document :=
  match a.text? with
  | some t => .ok (fieldList 1 (-1) t)
  | none => ofParse (a.toDocument "sort")

/-- The identifier that an argument names: a text that writes one, or any value. -/
def idOf (a : Argument) : Except ShellError Bson :=
  match a.text? with
  | some t =>
    match ObjectId.ofHex t with
    | .ok id => .ok (.objectId id)
    | .error _ => .ok (.str t)
  | none => ofParse a.toBson

/-- The whole number that a method needs. -/
def integerArgument (method : String) (args : List Argument) : Except ShellError Int :=
  match args.head?.bind Argument.int64? with
  | some i => .ok i
  | none => badArgument method "expected an integer"

/-- The options object of `populate`. -/
def populateOptions (options : Document) : Except ShellError Populate :=
  match (Bson.get? "path" options).bind Bson.toStr? with
  | none => badArgument "populate" "`path` is required"
  | some path =>
    let select : Option Document :=
      match Bson.get? "select" options with
      | some (.str t) => some (fieldList 1 0 t)
      | some (.doc d) => some d
      | _ => none
    .ok ⟨path, (Bson.get? "model" options).bind Bson.toStr?, select⟩

/-- What `populate` is to do. -/
def populateOf (args : List Argument) : Except ShellError Populate :=
  match args with
  | .str path :: r => .ok ⟨path, r.head?.bind Argument.text?, none⟩
  | .raw path :: r => .ok ⟨path, r.head?.bind Argument.text?, none⟩
  | .object members :: _ =>
    match (Argument.object members).toDocument "populate" with
    | .error e => .error (.parse e)
    | .ok options => populateOptions options
  | _ => badArgument "populate" "expected a path or an options object"

namespace Query

/-! ## Starting -/

/-- The operations that start a query. -/
def starters : List String := ["find", "findOne", "findById"]

/-- A query with a filter alone. -/
def ofFilter (filter : Document) (single : Bool) : Query :=
  ⟨filter, single, none, none, none, none, true, [], none⟩

/-- The query that an operation starts, without its projection. -/
def start (operation : String) (args : List Argument) : Except ShellError Query :=
  if operation = "find" || operation = "findOne" then
    match args with
    | [] => .ok (ofFilter [] (operation == "findOne"))
    | a :: _ =>
      match a.toDocument operation with
      | .error e => .error (.parse e)
      | .ok filter => .ok (ofFilter filter (operation == "findOne"))
  else if operation = "findById" then
    match args with
    | [] => badArgument operation "an id is required"
    | a :: _ =>
      match idOf a with
      | .error e => .error e
      | .ok id => .ok (ofFilter [("_id", id)] true)
  else .error (.unsupported (.operation operation))

/-- The query that an operation starts; its second argument is a projection. -/
def ofOperation (operation : String) (args : List Argument) : Except ShellError Query :=
  match start operation args with
  | .error e => .error e
  | .ok q =>
    match args.drop 1 with
    | [] => .ok q
    | p :: _ =>
      if p.isAbsent then .ok q
      else match projectionOf operation p with
        | .error e => .error e
        | .ok d => .ok { q with projection := some d }

/-! ## Methods -/

/-- The methods that can be chained. -/
inductive Method where
  | limit
  | skip
  | sort
  | select
  | populate
  | lean
  | exec
  | count
  | distinct
deriving DecidableEq, Repr

/-- The method of that name; a projection has two. -/
def Method.ofName? (name : String) : Option Method :=
  if name = "limit" then some .limit
  else if name = "skip" then some .skip
  else if name = "sort" then some .sort
  else if name = "select" || name = "project" then some .select
  else if name = "populate" then some .populate
  else if name = "lean" then some .lean
  else if name = "exec" then some .exec
  else if name = "count" then some .count
  else if name = "distinct" then some .distinct
  else none

/-- The query behind a method. -/
def applyMethod (q : Query) (m : Method) (args : List Argument) : Except ShellError Query :=
  match m with
  | .limit =>
    match integerArgument "limit" args with
    | .error e => .error e
    | .ok n => .ok { q with limit := some n }
  | .skip =>
    match integerArgument "skip" args with
    | .error e => .error e
    | .ok n =>
      if n < 0 then badArgument "skip" "must not be negative"
      else .ok { q with skip := some n.toNat }
  | .sort =>
    match args with
    | [] => badArgument "sort" "a sort specification is required"
    | a :: _ =>
      match sortOf a with
      | .error e => .error e
      | .ok d => .ok { q with sort := some d }
  | .select =>
    match args with
    | [] => badArgument "select" "a projection is required"
    | a :: _ =>
      match projectionOf "select" a with
      | .error e => .error e
      | .ok d => .ok { q with projection := some d }
  | .populate =>
    match populateOf args with
    | .error e => .error e
    | .ok p => .ok { q with populate := q.populate ++ [p] }
  | .lean => .ok { q with lean := (args.head?.bind Argument.bool?).getD true }
  | .exec => .ok q
  | .count => .ok { q with terminal := some .count }
  | .distinct =>
    match args.head?.bind Argument.text? with
    | none => badArgument "distinct" "a field name is required"
    | some field => .ok { q with terminal := some (.distinct field) }

/-- The query behind one call of a chain. -/
def applyCall (q : Query) (c : Call) : Except ShellError Query :=
  match Method.ofName? c.method with
  | none => .error (.unsupported (.chainMethod c.method))
  | some m => q.applyMethod m c.args

/-- The query behind the calls that have a meaning, and what the first other call is refused for. -/
def applyChain (q : Query) : List Call → Query × Option ShellError
  | [] => (q, none)
  | c :: r =>
    match q.applyCall c with
    | .error e => (q, some e)
    | .ok q' => q'.applyChain r

/-- The query that a whole command stands for. -/
def ofCommand (c : Command) : Except ShellError Query :=
  match ofOperation c.operation c.args with
  | .error e => .error e
  | .ok q =>
    match q.applyChain c.chain with
    | (q', none) => .ok q'
    | (_, some e) => .error e

end Query
end Polyshell.Mongo
