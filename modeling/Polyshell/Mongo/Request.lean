/-
  Requests to a document server, and what its replies say.

  A request is a document whose first member names the command.  It goes to one database: that of the
  session, the one for administration, or the one that a cursor of the server lies in.  A reply is a
  document as well; it says whether the command was carried out (`Reply.checked`), and for writes
  which of them failed (`Reply.written`).

  Documents come in batches.  A reply holds the first one and the number of a cursor; while that is
  not zero there are more (`documents`).
-/
import Polyshell.Session
import Polyshell.Error

namespace Polyshell.Mongo

/-! ## Connections and requests -/

/-- The connection of a session: its number, and the database that the session is in. -/
structure Connection where
  client : Nat
  database : String
deriving DecidableEq, Repr, Inhabited

/-- The database that a request is for. -/
inductive Addressee where
  /-- That of the session. -/
  | own
  /-- The one for administration. -/
  | admin
  /-- That of a cursor. -/
  | named (database : String)
deriving DecidableEq, Repr, Inhabited

/-- A request. -/
structure Request where
  addressee : Addressee
  command : Document
deriving Inhabited

/-- The database for administration. -/
def adminDatabase : String := "admin"

/-- The name of the database that a request is for. -/
def Request.database (q : Request) (c : Connection) : String :=
  match q.addressee with
  | .own => c.database
  | .admin => adminDatabase
  | .named d => d

/-- What comes back: a reply, or what went wrong on the way. -/
abbrev Answer := Except DocumentFault Document

/-- Work with document servers. -/
abbrev Work (α : Type) := Session Connection Request Answer (Except DocumentFault α)

/-! ## Replies -/

namespace Reply

/-- A whole number of any kind. -/
def whole? : Bson → Option Int
  | .int32 i => some i
  | .int64 i => some i
  | .double x => x.toInt?
  | _ => none

/-- Something that a reply lacks. -/
def missing {α : Type} (key : String) : Except DocumentFault α :=
  .error (.invalidReply ("missing field `" ++ key ++ "`"))

/-- A count under a key. -/
def count (key : String) (r : Document) : Except DocumentFault Nat :=
  match (Bson.get? key r).map whole? with
  | none => missing key
  | some (some i) =>
    if 0 ≤ i then .ok i.toNat
    else .error (.invalidReply ("invalid value: integer `" ++ toString i ++ "`, expected u64"))
  | some none => .error (.invalidReply ("invalid type in field `" ++ key ++ "`, expected u64"))

/-- The list under a key. -/
def list (key : String) (r : Document) : Except DocumentFault (List Bson) :=
  match Bson.get? key r with
  | none => missing key
  | some (.arr items) => .ok items
  | some _ => .error (.invalidReply ("invalid type in field `" ++ key ++ "`, expected a sequence"))

/-- The documents of a list. -/
def documentsOf : List Bson → Except DocumentFault (List Document)
  | [] => .ok []
  | .doc d :: r => (documentsOf r).map (d :: ·)
  | _ :: _ => .error (.invalidReply "invalid type: expected a map")

/-- The reply of a command that was carried out. -/
def checked (r : Document) : Answer :=
  match Bson.get? "ok" r with
  | none => .error (.invalidReply "reply did not contain an ok field")
  | some v =>
    if whole? v = some 1 then .ok r
    else match DocumentFault.commandOf? r with
      | some f => .error f
      | none => .error (.invalidReply "error deserializing command error: missing field `code`")

/-- The writes that failed, in a reply to writes. -/
def failedWrites (r : Document) : List WriteFault :=
  match Bson.get? "writeErrors" r with
  | some (.arr items) => items.filterMap fun w => w.toDoc?.bind DocumentFault.writeFaultOf?
  | _ => []

/-- The missing confirmation, in a reply to writes. -/
def missingConfirmation (r : Document) : Option WriteFault :=
  ((Bson.get? "writeConcernError" r).bind Bson.toDoc?).bind DocumentFault.writeFaultOf?

/-- The fault of a single write. -/
def writeFault? (r : Document) : Option DocumentFault :=
  match failedWrites r, missingConfirmation r with
  | f :: _, _ => some (.write f)
  | [], some f => some (.writeConcern f)
  | [], none => none

/-- The fault of a batch of inserts. -/
def batchFault? (r : Document) : Option DocumentFault :=
  match failedWrites r, missingConfirmation r with
  | [], none => none
  | fs, c => some (.insertMany fs c)

/-- The reply, unless there is a fault in it. -/
def clear (fault : Document → Option DocumentFault) (r : Document) : Answer :=
  match fault r with
  | some f => .error f
  | none => .ok r

end Reply

/-! ## Asking -/

/-- A request, and its reply if the command was carried out. -/
def ask (c : Connection) (addressee : Addressee) (command : Document) : Work Document :=
  (Session.send c ⟨addressee, command⟩).bind fun answer => .done (answer.bind Reply.checked)

/-- A request for writes, and its reply if nothing went wrong with them. -/
def write (c : Connection) (fault : Document → Option DocumentFault) (command : Document) :
    Work Document :=
  (ask c .own command).andThen fun r => .done (Reply.clear fault r)

/-- Goes on with the reply. -/
def askFor {α : Type} (c : Connection) (addressee : Addressee) (command : Document)
    (read : Document → Except DocumentFault α) : Work α :=
  (ask c addressee command).andThen fun r => .done (read r)

/-! ## Cursors -/

/-- A batch of documents, and where the next one comes from. -/
structure Batch where
  cursor : Int
  database : String
  collection : String
  documents : List Document
deriving Inhabited

namespace Batch

/-- The database and the collection in a full name. -/
def place? (name : String) : Option (String × String) :=
  match Text.cut '.' name.toList with
  | (d, some c) => some (String.ofList d, String.ofList c)
  | (_, none) => none

/-- The batch in a reply; `key` is what its documents stand under. -/
def ofReply (key : String) (r : Document) : Except DocumentFault Batch :=
  match (Bson.get? "cursor" r).bind Bson.toDoc? with
  | none => Reply.missing "cursor"
  | some d =>
    match (Bson.get? "id" d).bind Reply.whole?, (Bson.get? "ns" d).bind Bson.toStr? with
    | none, _ => Reply.missing "id"
    | _, none => Reply.missing "ns"
    | some id, some name =>
      match place? name with
      | none => .error (.invalidReply "Missing one or more fields in namespace")
      | some (database, collection) => do
        let items ← Reply.list key d
        let documents ← Reply.documentsOf items
        return ⟨id, database, collection, documents⟩

/-- The request for the batch behind this one. -/
def more (b : Batch) : Document := [("getMore", .int64 b.cursor), ("collection", .str b.collection)]

/-- More batches than this are not asked for; no server has them. -/
def limit : Nat := Nat.pow 2 64

/-- The documents of a batch and of those behind it, at most `fuel` of them. -/
def following (c : Connection) : (fuel : Nat) → Batch → Work (List Document)
  | 0, b => .done (.ok b.documents)
  | fuel + 1, b =>
    if b.cursor = 0 then .done (.ok b.documents)
    else
      (askFor c (.named b.database) b.more (ofReply "nextBatch")).andThen fun next =>
        (following c fuel { next with database := b.database, collection := b.collection }).andThen
          fun ds => .done (.ok (b.documents ++ ds))

/-- The first document of a batch or of those behind it. -/
def firstOf (c : Connection) : (fuel : Nat) → Batch → Work (Option Document)
  | 0, b => .done (.ok b.documents.head?)
  | fuel + 1, b =>
    if b.cursor = 0 || !b.documents.isEmpty then .done (.ok b.documents.head?)
    else
      (askFor c (.named b.database) b.more (ofReply "nextBatch")).andThen fun next =>
        firstOf c fuel { next with database := b.database, collection := b.collection }

end Batch

/-- All documents that a command answers with. -/
def documents (c : Connection) (addressee : Addressee) (command : Document) : Work (List Document) :=
  (askFor c addressee command (Batch.ofReply "firstBatch")).andThen fun b =>
    Batch.following c Batch.limit b

/-- The first document that a command answers with. -/
def firstDocument (c : Connection) (addressee : Addressee) (command : Document) : Work (Option Document) :=
  (askFor c addressee command (Batch.ofReply "firstBatch")).andThen fun b =>
    Batch.firstOf c Batch.limit b

end Polyshell.Mongo
