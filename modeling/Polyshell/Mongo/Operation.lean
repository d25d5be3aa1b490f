/-
  Operations on a collection that are not queries.

  `Operation.ofCall` reads an operation from the name and the arguments of a call; whatever is wrong
  with them is found out here, before anything is sent.  Every operation reads its arguments from the
  left: a filter that is not given is empty, and what an operation cannot do without is named in its
  error.  `Mongo.Operation.Run` carries operations out.
-/
import Polyshell.Mongo.Query
import Polyshell.Mongo.Index

namespace Polyshell.Mongo

/-! ## What operations are made of -/

/-- How documents are changed. -/
inductive Update where
  /-- By operators. -/
  | operators (d : Document)
  /-- By the stages of a pipeline. -/
  | pipeline (stages : List Document)
deriving Inhabited

/-- Options of updates. -/
structure WriteOptions where
  upsert : Option Bool
  arrayFilters : Option (List Document)
  multi : Bool
deriving Inhabited

/-- What is done to a document that is found. -/
inductive Modification where
  | update (u : Update)
  | replacement (d : Document)
  | removal
deriving Inhabited

/-- Options of finding and modifying at once. -/
structure ModifyOptions where
  /-- Whether the document is wanted as it is afterwards. -/
  after : Bool
  upsert : Option Bool
  arrayFilters : Option (List Document)
  sort : Option Document
  projection : Option Document
deriving Inhabited

/-- An operation. -/
inductive Operation where
  | insertOne (d : Document)
  | insertMany (ds : List Document)
  | update (filter : Document) (u : Update) (o : WriteOptions) (many : Bool)
  | replace (filter replacement : Document) (upsert : Option Bool)
  | delete (filter : Document) (many : Bool)
  | modify (filter : Document) (m : Modification) (o : ModifyOptions)
  | aggregate (pipeline : List Document)
  | count (filter : Document)
  | estimatedCount
  | distinct (field : String) (filter : Document)
  | createIndex (index : Index)
  /-- Drops the index of a name, or of some keys. -/
  | dropIndex (index : Bson)
  | listIndexes
  | drop
  | rename (target : String) (dropTarget : Bool)
  | stats
deriving Inhabited

/-! ## Options -/

/-- A truth value under a key. -/
def boolOf? (key : String) (d : Document) : Option Bool :=
  match Bson.get? key d with
  | some (.bool b) => some b
  | _ => none

/-- A document under a key. -/
def documentOf? (key : String) (d : Document) : Option Document :=
  (Bson.get? key d).bind Bson.toDoc?

/-- The documents of a list under a key. -/
def documentsOf? (key : String) (d : Document) : Option (List Document) :=
  ((Bson.get? key d).bind Bson.toArr?).map fun items => items.filterMap Bson.toDoc?

/-- The options of an update; what is of the wrong kind is left out. -/
def WriteOptions.ofDocument (d : Document) : WriteOptions :=
  ⟨boolOf? "upsert" d, documentsOf? "arrayFilters" d, (boolOf? "multi" d).getD false⟩

/-- Whether the document is wanted as it is afterwards; there are three ways to say so. -/
def wantsAfter (d : Document) : Bool :=
  (Bson.get? "returnDocument" d).bind Bson.toStr? == some "after" ||
    (boolOf? "returnNewDocument" d).getD false || (boolOf? "new" d).getD false

namespace ModifyOptions

/-- The options of finding and deleting: order and projection. -/
def ofDeletion (d : Document) : ModifyOptions :=
  ⟨false, none, none, documentOf? "sort" d, documentOf? "projection" d⟩

/-- The options of finding and replacing. -/
def ofReplacement (d : Document) : ModifyOptions :=
  { ofDeletion d with after := wantsAfter d, upsert := boolOf? "upsert" d }

/-- The options of finding and updating. -/
def ofUpdate (d : Document) : ModifyOptions :=
  { ofReplacement d with arrayFilters := documentsOf? "arrayFilters" d }

end ModifyOptions

/-! ## Arguments -/

/-- An argument that an operation cannot do without. -/
def required {α : Type} (operation what : String) : Except ShellError α :=
  badArgument operation (what ++ " is required")

/-- A document; none is an empty one. -/
def documentArgument (operation : String) : Option Argument → Except ShellError Document
  | none => .ok []
  | some a => ofParse (a.toDocument operation)

/-- A document that must be given. -/
def requiredDocument (operation what : String) : Option Argument → Except ShellError Document
  | some a => if a.isAbsent then required operation what else ofParse (a.toDocument operation)
  | none => required operation what

/-- The documents among values, which must be nothing else. -/
def onlyDocuments (operation what : String) : List Bson → Except ShellError (List Document)
  | [] => .ok []
  | .doc d :: r => (onlyDocuments operation what r).map (d :: ·)
  | _ :: _ => badArgument operation (what ++ " must contain only objects")

/-- A list of documents. -/
def documentsArgument (operation what : String) : Option Argument → Except ShellError (List Document)
  | some (.array items) =>
    match (Argument.array items).toBson with
    | .error e => .error (.parse e)
    | .ok (.arr vs) => onlyDocuments operation what vs
    | .ok _ => required operation what
  | _ => required operation what

/-- An update: operators, or a pipeline. -/
def updateArgument (operation : String) : Option Argument → Except ShellError Update
  | some (.array items) =>
    (documentsArgument operation "update pipeline" (some (.array items))).map .pipeline
  | some a =>
    if a.isAbsent then required operation "an update"
    else (ofParse (a.toDocument operation)).map .operators
  | none => required operation "an update"

/-- A text. -/
def textArgument (operation what : String) (a : Option Argument) : Except ShellError String :=
  match a.bind Argument.text? with
  | some t => .ok t
  | none => required operation what

/-- Whether a removal is of one document only: said plainly, or in an object. -/
def justOne : Option Argument → Bool
  | some (.bool b) => b
  | some (.object members) =>
    match Members.find? "justOne" members with
    | some (.bool b) => b
    | _ => false
  | _ => false

/-- An argument that is there and not null. -/
def present? (a : Option Argument) : Option Argument := a.filter fun a => !a.isAbsent

namespace Operation

/-! ## Reading -/

/-- `insertOne`. -/
def readInsertOne (args : List Argument) : Except ShellError Operation :=
  (requiredDocument "insertOne" "a document" args[0]?).map .insertOne

/-- `insertMany`. -/
def readInsertMany (args : List Argument) : Except ShellError Operation :=
  (documentsArgument "insertMany" "an array of documents" args[0]?).map .insertMany

/-- `insert`: of one document, or of a list. -/
def readInsert (args : List Argument) : Except ShellError Operation :=
  match args with
  | .array _ :: _ => readInsertMany args
  | _ => readInsertOne args

/-- The updates; where `many` is not said, the options say it. -/
def readUpdate (operation : String) (many : Option Bool) (args : List Argument) :
    Except ShellError Operation := do
  let filter ← documentArgument operation args[0]?
  let u ← updateArgument operation args[1]?
  let raw ← documentArgument operation args[2]?
  let o := WriteOptions.ofDocument raw
  return .update filter u o (many.getD o.multi)

/-- `replaceOne`. -/
def readReplace (args : List Argument) : Except ShellError Operation := do
  let filter ← documentArgument "replaceOne" args[0]?
  let replacement ← requiredDocument "replaceOne" "a replacement document" args[1]?
  let raw ← documentArgument "replaceOne" args[2]?
  return .replace filter replacement (WriteOptions.ofDocument raw).upsert

/-- `deleteOne` and `deleteMany`. -/
def readDelete (operation : String) (many : Bool) (args : List Argument) :
    Except ShellError Operation :=
  (documentArgument operation args[0]?).map fun filter => .delete filter many

/-- `remove`. -/
def readRemove (args : List Argument) : Except ShellError Operation :=
  (documentArgument "remove" args[0]?).map fun filter => .delete filter (!justOne args[1]?)

/-- `findOneAndUpdate`. -/
def readFindAndUpdate (args : List Argument) : Except ShellError Operation := do
  let filter ← documentArgument "findOneAndUpdate" args[0]?
  let u ← updateArgument "findOneAndUpdate" args[1]?
  let raw ← documentArgument "findOneAndUpdate" args[2]?
  return .modify filter (.update u) (.ofUpdate raw)

/-- `findOneAndDelete`. -/
def readFindAndDelete (args : List Argument) : Except ShellError Operation := do
  let filter ← documentArgument "findOneAndDelete" args[0]?
  let raw ← documentArgument "findOneAndDelete" args[1]?
  return .modify filter .removal (.ofDeletion raw)

/-- `findOneAndReplace`. -/
def readFindAndReplace (args : List Argument) : Except ShellError Operation := do
  let filter ← documentArgument "findOneAndReplace" args[0]?
  let replacement ← requiredDocument "findOneAndReplace" "a replacement document" args[1]?
  let raw ← documentArgument "findOneAndReplace" args[2]?
  return .modify filter (.replacement replacement) (.ofReplacement raw)

/-- `distinct`. -/
def readDistinct (args : List Argument) : Except ShellError Operation := do
  let field ← textArgument "distinct" "a field name" args[0]?
  let filter ← documentArgument "distinct" args[1]?
  return .distinct field filter

/-- The options of `createIndex`. -/
def indexOptionsArgument (a : Option Argument) : Except ShellError Document :=
  match present? a with
  | none => .ok []
  | some a => do
    let raw ← ofParse (a.toDocument "createIndex")
    match Index.readOptions raw with
    | .ok options => return options
    | .error problem => badArgument "createIndex" ("invalid index options: " ++ problem)

/-- `createIndex`. -/
def readCreateIndex (args : List Argument) : Except ShellError Operation := do
  let keys ← requiredDocument "createIndex" "an index key specification" args[0]?
  let options ← indexOptionsArgument args[1]?
  return .createIndex (Index.ofOptions keys options)

/-- `dropIndex`. -/
def readDropIndex (args : List Argument) : Except ShellError Operation :=
  match present? args[0]? with
  | none => required "dropIndex" "an index name or key specification"
  | some a => (ofParse a.toBson).map .dropIndex

/-- `renameCollection`. -/
def readRename (args : List Argument) : Except ShellError Operation := do
  let target ← textArgument "renameCollection" "a target collection name" args[0]?
  let dropTarget := match args with
    | _ :: .bool b :: _ => b
    | _ => false
  return .rename target dropTarget

/-! ## Names -/

/-- The readers of operations, by name. -/
def readers : List (String × (List Argument → Except ShellError Operation)) :=
  [("insertOne", readInsertOne), ("insertMany", readInsertMany), ("insert", readInsert),
    ("updateOne", readUpdate "updateOne" (some false)),
    ("updateMany", readUpdate "updateMany" (some true)), ("update", readUpdate "update" none),
    ("replaceOne", readReplace), ("deleteOne", readDelete "deleteOne" false),
    ("deleteMany", readDelete "deleteMany" true), ("remove", readRemove),
    ("findOneAndUpdate", readFindAndUpdate), ("findOneAndDelete", readFindAndDelete),
    ("findOneAndReplace", readFindAndReplace),
    ("aggregate", fun args =>
      (documentsArgument "aggregate" "a pipeline array" args[0]?).map .aggregate),
    ("countDocuments", fun args => (documentArgument "countDocuments" args[0]?).map .count),
    ("count", fun args => (documentArgument "countDocuments" args[0]?).map .count),
    ("estimatedDocumentCount", fun _ => .ok .estimatedCount), ("distinct", readDistinct),
    ("createIndex", readCreateIndex), ("dropIndex", readDropIndex),
    ("dropIndexes", fun _ => .ok (.dropIndex (.str "*"))), ("getIndexes", fun _ => .ok .listIndexes),
    ("drop", fun _ => .ok .drop), ("renameCollection", readRename), ("stats", fun _ => .ok .stats)]

/-- The operation that a call asks for. -/
def ofCall (name : String) (args : List Argument) : Except ShellError Operation :=
  match Members.find? name readers with
  | some read => read args
  | none => .error (.unsupported (.operation name))

end Operation
end Polyshell.Mongo
