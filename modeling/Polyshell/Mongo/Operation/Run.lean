/-
  Operations on a collection carried out.

  Each operation is one request.  What can be refused without the server is refused here: an empty
  batch of inserts, an update that does not consist of operators, a replacement that does.  A
  document without an identifier gets a new one before it is inserted.  Dropping what is not there,
  and estimating the size of it, are no errors.
-/
import Polyshell.Mongo.Operation
import Polyshell.Mongo.Fetch

namespace Polyshell.Mongo

/-- New identifiers, by number. -/
abbrev NewIds := Nat → ObjectId

/-- A result with the remark that the server confirmed it. -/
def acknowledged (members : Document) : Bson := .doc (("acknowledged", .bool true) :: members)

/-- A document, or null. -/
def documentOrNull (d : Option Document) : Bson := (d.map .doc).getD .null

/-- The number of the error for a collection that is not there. -/
def namespaceNotFound : Int := 26

/-- What is answered in place of the error for a collection that is not there. -/
def whereMissing {α : Type} (value : α) : Except DocumentFault α → Except DocumentFault α
  | .error (.command code name message) =>
    if code = namespaceNotFound then .ok value else .error (.command code name message)
  | r => r

/-! ## Inserts -/

/-- A document with an identifier, a new one in front if it has none. -/
def withId (fresh : ObjectId) (d : Document) : Document :=
  if (Bson.get? "_id" d).isSome then d else ("_id", .objectId fresh) :: d

/-- The identifier of a document. -/
def idIn (d : Document) : Bson := (Bson.get? "_id" d).getD .null

/-- Documents with identifiers, the new ones counted from `n`. -/
def withIds (newId : NewIds) (n : Nat) : List Document → List Document
  | [] => []
  | d :: r => withId (newId n) d :: withIds newId (n + 1) r

/-- The request that inserts documents. -/
def insertCommand (collection : String) (ds : List Document) : Document :=
  [("insert", .str collection), ("ordered", .bool true), ("documents", .arr (ds.map .doc))]

/-! ## Changes -/

/-- Whether a key names an operator. -/
def isOperator (key : String) : Bool := key.toList.head? == some '$'

/-- What is wrong with an update. -/
def Update.fault? : Update → Option DocumentFault
  | .operators [] => some (.invalidArgument "update document must not be empty")
  | .operators ((k, _) :: _) =>
    if isOperator k then none
    else some (.invalidArgument "update document must only contain update modifiers")
  | .pipeline _ => none

/-- What is wrong with a replacement. -/
def replacementFault? : Document → Option DocumentFault
  | [] => none
  | (k, _) :: _ =>
    if isOperator k then
      some (.invalidArgument "replacement document must not contain update modifiers")
    else none

def Update.toBson : Update → Bson
  | .operators d => .doc d
  | .pipeline stages => .arr (stages.map .doc)

/-- The options of a change that are given. -/
def changeOptions (upsert : Option Bool) (arrayFilters : Option (List Document)) : Document :=
  optionalMember "upsert" (upsert.map .bool) ++
    optionalMember "arrayFilters" (arrayFilters.map fun ds => .arr (ds.map .doc))

/-- The request that changes documents. -/
def updateCommand (collection : String) (filter : Document) (change : Bson) (options : Document)
    (many : Bool) : Document :=
  [("update", .str collection), ("ordered", .bool true),
    ("updates", .arr [.doc
      ([("q", .doc filter), ("u", change)] ++ options ++
        (if many then [("multi", .bool true)] else []))])]

/-- What a reply to changes says. -/
def changeResult (r : Document) : Except DocumentFault Bson := do
  let n ← Reply.count "n" r
  let changed ← Reply.count "nModified" r
  let upserted := (documentsOf? "upserted" r).getD []
  return acknowledged
    [("matchedCount", .int64 ((n - upserted.length : Nat) : Int)), ("modifiedCount", .int64 changed),
      ("upsertedId", ((upserted.head?).bind (Bson.get? "_id")).getD .null)]

/-- Changes documents, unless the change is at fault. -/
def change (c : Connection) (fault : Option DocumentFault) (command : Document) : Work Bson :=
  match fault with
  | some f => .done (.error f)
  | none => (write c Reply.writeFault? command).andThen fun r => .done (changeResult r)

/-- The request that deletes documents. -/
def deleteCommand (collection : String) (filter : Document) (many : Bool) : Document :=
  [("delete", .str collection), ("ordered", .bool true),
    ("deletes", .arr [.doc [("q", .doc filter), ("limit", .int32 (if many then 0 else 1))]])]

/-! ## Finding and modifying at once -/

/-- What is wrong with a modification. -/
def Modification.fault? : Modification → Option DocumentFault
  | .update u => u.fault?
  | .replacement d => replacementFault? d
  | .removal => none

/-- The member of a request that says what is done. -/
def Modification.member : Modification → String × Bson
  | .update u => ("update", u.toBson)
  | .replacement d => ("update", .doc d)
  | .removal => ("remove", .bool true)

/-- The request that finds a document and modifies it. -/
def modifyCommand (collection : String) (filter : Document) (m : Modification)
    (o : ModifyOptions) : Document :=
  [("findAndModify", .str collection), ("query", .doc filter), m.member] ++
    (if o.after then [("new", .bool true)] else []) ++ changeOptions o.upsert o.arrayFilters ++
    optionalMember "sort" (o.sort.map .doc) ++ optionalMember "fields" (o.projection.map .doc)

/-- The document in the reply. -/
def modifiedDocument (r : Document) : Except DocumentFault Bson :=
  match Bson.get? "value" r with
  | none => Reply.missing "value"
  | some (.doc d) => .ok (.doc d)
  | some .null => .ok .null
  | some _ =>
    .error (.invalidReply "expected document for value field of findAndModify response")

/-! ## Indexes -/

/-- The request that makes an index. -/
def createIndexCommand (collection : String) (i : Index) : Document :=
  [("createIndexes", .str collection), ("indexes", .arr [.doc i.named.toDocument])]

/-- The indexes that documents describe. -/
def indexesOf : List Document → Except DocumentFault (List Bson)
  | [] => .ok []
  | d :: r =>
    match Index.ofDescription? d with
    | none => Reply.missing "key"
    | some i => (indexesOf r).map (.doc i.toDocument :: ·)

/-! ## Running -/

namespace Operation

/-- Sends inserts; `result` is made of the documents with their identifiers. -/
def insert (c : Connection) (collection : String) (fault : Document → Option DocumentFault)
    (ds : List Document) (result : List Bson → Bson) : Work Bson :=
  (write c fault (insertCommand collection ds)).andThen fun r =>
    .done ((Reply.count "n" r).map fun _ => result (ds.map idIn))

/-- Carries an operation on a collection out. -/
def run (c : Connection) (collection : String) (newId : NewIds) : Operation → Work Bson
  | .insertOne d =>
    insert c collection Reply.writeFault? [withId (newId 0) d] fun ids =>
      acknowledged [("insertedId", ids.head?.getD .null)]
  | .insertMany [] => .done (.error (.invalidArgument "No documents provided to insert_many"))
  | .insertMany ds =>
    insert c collection Reply.batchFault? (withIds newId 0 ds) fun ids =>
      acknowledged [("insertedIds", .arr ids)]
  | .update filter u o many =>
    change c u.fault?
      (updateCommand collection filter u.toBson (changeOptions o.upsert o.arrayFilters) many)
  | .replace filter replacement upsert =>
    change c (replacementFault? replacement)
      (updateCommand collection filter (.doc replacement) (changeOptions upsert none) false)
  | .delete filter many =>
    (write c Reply.writeFault? (deleteCommand collection filter many)).andThen fun r =>
      .done ((Reply.count "n" r).map fun n => acknowledged [("deletedCount", .int64 n)])
  | .modify filter m o =>
    match m.fault? with
    | some f => .done (.error f)
    | none => askFor c .own (modifyCommand collection filter m o) modifiedDocument
  | .aggregate pipeline =>
    (documents c .own (aggregateCommand collection pipeline)).andThen fun ds =>
      .done (.ok (.arr (ds.map .doc)))
  | .count filter =>
    (countDocuments c collection filter none none).andThen fun n => .done (.ok (.int64 n))
  | .estimatedCount =>
    (askFor c .own [("count", .str collection)] (Reply.count "n")).bind fun r =>
      .done ((whereMissing 0 r).map fun n => .int64 n)
  | .distinct field filter =>
    (distinctValues c collection field filter).andThen fun vs => .done (.ok (.arr vs))
  | .createIndex i =>
    (write c Reply.writeFault? (createIndexCommand collection i)).andThen fun _ =>
      .done (.ok (.str (i.named.name.getD "")))
  | .dropIndex index =>
    (ask c .own [("dropIndexes", .str collection), ("index", index)]).andThen fun r =>
      .done (.ok (.doc r))
  | .listIndexes =>
    (documents c .own [("listIndexes", .str collection), ("cursor", .doc [])]).andThen fun ds =>
      .done ((indexesOf ds).map .arr)
  | .drop =>
    (write c Reply.writeFault? [("drop", .str collection)]).bind fun r =>
      .done ((whereMissing [] r).map fun _ => .bool true)
  | .rename target dropTarget =>
    (ask c .admin
        [("renameCollection", .str (c.database ++ "." ++ collection)),
          ("to", .str (c.database ++ "." ++ target)), ("dropTarget", .bool dropTarget)]).andThen
      fun r => .done (.ok (.doc r))
  | .stats =>
    (ask c .own [("collStats", .str collection)]).andThen fun r => .done (.ok (.doc r))

end Operation
end Polyshell.Mongo
