/-
  Queries carried out.

  A query is one request: the documents that match, their number, or the values of one field.  What a
  limit below zero asks for is a single batch of that many documents.

  References are replaced after the documents have come, one request specification after another.  A
  list of references is looked up at once and keeps its order; what is not found drops out of a list,
  and becomes null where it stands alone.
-/
import Polyshell.Mongo.Request
import Polyshell.Mongo.Query
import Polyshell.Bson.Same

namespace Polyshell.Mongo

/-- A member that is there if its value is. -/
def optionalMember (key : String) (value : Option Bson) : Document :=
  (value.map fun v => (key, v)).toList

/-! ## Requests -/

/-- How the documents that match are presented. -/
structure Shape where
  projection : Option Document
  sort : Option Document
  skip : Option Nat
  limit : Option Int
deriving Inhabited

/-- The documents as they are. -/
def Shape.plain : Shape := ⟨none, none, none, none⟩

/-- The members of a request that a limit stands for. -/
def limitMembers (limit : Int) : Document :=
  (if limit < 0 then [("singleBatch", .bool true)] else []) ++ [("limit", .int64 limit.natAbs)]

/-- The request for the documents that match. -/
def findCommand (collection : String) (filter : Document) (s : Shape) : Document :=
  ("find", .str collection) :: (s.limit.map limitMembers).getD [] ++
    optionalMember "projection" (s.projection.map .doc) ++
    optionalMember "skip" (s.skip.map fun n => .int64 n) ++ optionalMember "sort" (s.sort.map .doc) ++
    [("filter", .doc filter)]

/-- The request for the first document that matches. -/
def findOneCommand (collection : String) (filter : Document) (s : Shape) : Document :=
  findCommand collection filter { s with limit := some (-1) }

/-- The request for an aggregation. -/
def aggregateCommand (collection : String) (pipeline : List Document) : Document :=
  [("aggregate", .str collection), ("pipeline", .arr (pipeline.map .doc)), ("cursor", .doc [])]

/-- The stages that count what matches. -/
def countStages (filter : Document) (skip limit : Option Nat) : List Document :=
  [("$match", .doc filter)] :: (skip.map fun n => [("$skip", .int64 n)]).toList ++
    (limit.map fun n => [("$limit", .int64 n)]).toList ++
    [[("$group", .doc [("_id", .int32 1), ("n", .doc [("$sum", .int32 1)])])]]

/-- The request for the values of a field. -/
def distinctCommand (collection field : String) (filter : Document) : Document :=
  [("distinct", .str collection), ("key", .str field), ("query", .doc filter)]

/-- The number of documents that match. -/
def countDocuments (c : Connection) (collection : String) (filter : Document)
    (skip limit : Option Nat) : Work Nat :=
  (askFor c .own (aggregateCommand collection (countStages filter skip limit))
      (Batch.ofReply "firstBatch")).andThen fun b =>
    .done (match b.documents with
      | [] => .ok 0
      | d :: _ => Reply.count "n" d)

/-- The values of a field. -/
def distinctValues (c : Connection) (collection field : String) (filter : Document) :
    Work (List Bson) :=
  askFor c .own (distinctCommand collection field filter) (Reply.list "values")

/-! ## References -/

namespace Populate

/-- The presentation of documents that are referred to. -/
def shape (p : Populate) : Shape := { Shape.plain with projection := p.select }

/-- The document among `found` with an identifier. -/
def withId? (found : List Document) (id : Bson) : Option Document :=
  found.find? fun d =>
    match Bson.get? "_id" d with
    | some x => x.same id
    | none => false

/-- The documents that a list of references stands for, in its order. -/
def pick (found : List Document) (ids : List Bson) : List Document := ids.filterMap (withId? found)

/-- What stands in place of references. -/
def resolve (c : Connection) (p : Populate) (model : String) (reference : Bson) : Work Bson :=
  match reference with
  | .arr ids =>
    (documents c .own (findCommand model [("_id", .doc [("$in", .arr ids)])] p.shape)).andThen
      fun found => .done (.ok (.arr ((pick found ids).map .doc)))
  | id =>
    (firstDocument c .own (findOneCommand model [("_id", id)] p.shape)).andThen fun found =>
      .done (.ok ((found.map .doc).getD .null))

/-- A document with its references replaced.  A field that is missing or null stays so. -/
def inDocument (c : Connection) (p : Populate) (model : String) (d : Document) : Work Document :=
  match Bson.get? p.path d with
  | none => .done (.ok d)
  | some .null => .done (.ok d)
  | some reference =>
    (resolve c p model reference).andThen fun v => .done (.ok (Members.put p.path v d))

/-- Several documents, one after another. -/
def inDocuments (c : Connection) (p : Populate) (model : String) :
    List Document → Work (List Document)
  | [] => .done (.ok [])
  | d :: r =>
    (inDocument c p model d).andThen fun d' =>
      (inDocuments c p model r).andThen fun r' => .done (.ok (d' :: r'))

/-- Without a collection to look in, nothing is replaced. -/
def apply (c : Connection) (p : Populate) (ds : List Document) : Work (List Document) :=
  match p.model with
  | none => .done (.ok ds)
  | some model => inDocuments c p model ds

end Populate

/-- One replacement after another. -/
def populateAll (c : Connection) : List Populate → List Document → Work (List Document)
  | [], ds => .done (.ok ds)
  | p :: ps, ds => (p.apply c ds).andThen fun ds' => populateAll c ps ds'

/-! ## Queries -/

namespace Query

/-- How the documents of a query are presented. -/
def shape (q : Query) : Shape := ⟨q.projection, q.sort, q.skip, q.limit⟩

/-- The limit on what is counted; zero is none, and the sign does not count. -/
def countLimit (q : Query) : Option Nat := (q.limit.filter (· ≠ 0)).map Int.natAbs

/-- The first document of a query, its references replaced. -/
def fetchOne (c : Connection) (collection : String) (q : Query) : Work Bson :=
  (firstDocument c .own (findOneCommand collection q.filter q.shape)).andThen fun
    | none => .done (.ok .null)
    | some d =>
      (populateAll c q.populate [d]).andThen fun ds =>
        .done (.ok ((ds.head?.map .doc).getD .null))

/-- The documents of a query, their references replaced. -/
def fetchAll (c : Connection) (collection : String) (q : Query) : Work Bson :=
  (documents c .own (findCommand collection q.filter q.shape)).andThen fun ds =>
    (populateAll c q.populate ds).andThen fun ds => .done (.ok (.arr (ds.map .doc)))

/-- The answer to a query on a collection. -/
def fetch (c : Connection) (collection : String) (q : Query) : Work Bson :=
  match q.terminal with
  | some .count =>
    (countDocuments c collection q.filter q.skip q.countLimit).andThen fun n =>
      .done (.ok (.int64 n))
  | some (.distinct field) =>
    (distinctValues c collection field q.filter).andThen fun vs => .done (.ok (.arr vs))
  | none => if q.single then fetchOne c collection q else fetchAll c collection q

end Query
end Polyshell.Mongo
