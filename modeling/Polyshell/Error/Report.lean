/-
  From the errors of the three kinds of servers to reports.

  Each server has its own error vocabulary, given here as one type per server; `report` says which
  parts of a report an error fills in.

  * A document server numbers its errors; a few numbers have a name.  For a failed write the place
    is taken from the structured part of the error where it is there, and from the words of its
    message otherwise.
  * A key-value server starts an error with a code word, which becomes the name.
  * A relational server reports a number and a state; the state becomes the name.  What goes wrong
    on the way there has no number, only words.
-/
import Polyshell.Error.Info
import Polyshell.Text.Lowercase

namespace Polyshell

/-! ## Document servers -/

/-- A write that the server refused, or a write that it could not confirm. -/
structure WriteFault where
  code : Int
  message : String
  /-- The structured part. -/
  info : Option Document
deriving Inhabited

/-- An error of a document server, or of the way to it. -/
inductive DocumentFault where
  | write (fault : WriteFault)
  | writeConcern (fault : WriteFault)
  | command (code : Int) (name message : String)
  /-- A batch of inserts: the writes that failed, and the missing confirmation. -/
  | insertMany (writes : List WriteFault) (concern : Option WriteFault)
  | authentication (message : String)
  | invalidArgument (message : String)
  | serverSelection (message : String)
  /-- Anything else, in words. -/
  | other (message : String)
deriving Inhabited

namespace DocumentFault

/-- The name of an error number. -/
def codeName? (code : Int) : Option String :=
  if code = 11000 || code = 11001 then some "DuplicateKey"
  else if code = 13 then some "Unauthorized"
  else if code = 18 then some "AuthenticationFailed"
  else if code = 26 then some "NamespaceNotFound"
  else if code = 50 then some "MaxTimeMSExpired"
  else if code = 121 then some "DocumentValidationFailure"
  else none

/-- The word behind a marker; it must end with a space. -/
def wordAfter? (message marker : String) : Option String :=
  match Text.after? marker.toList message.toList with
  | none => none
  | some rest =>
    match Text.cut ' ' rest with
    | (word, some _) => some (String.ofList word)
    | (_, none) => none

/-- The value of the first of two keys that the document has. -/
def either? (first second : String) (d : Document) : Option Bson :=
  Bson.get? first d <|> Bson.get? second d

/-- The place of a failed write. -/
def detailsOf (fault : WriteFault) : ErrorDetails :=
  let info := fault.info.getD []
  let collection := (either? "namespace" "ns" info).bind Bson.toStr?
  let index := (either? "index" "indexName" info).bind Bson.toStr?
  { collection := collection <|> wordAfter? fault.message "collection: "
    index := index <|> wordAfter? fault.message "index: "
    key := (either? "keyValue" "keyPattern" info).bind Bson.toDoc? }

/-- Number, message and name of a write fault. -/
def writeReport (kind : String) (fault : WriteFault) (details : Option ErrorDetails) : ErrorInfo :=
  ⟨some kind, some fault.code, codeName? fault.code, some fault.message, details⟩

/-- The report of an error. -/
def report : DocumentFault → ErrorInfo
  | .write f => writeReport "mongo.write_error" f (some (detailsOf f))
  | .writeConcern f => writeReport "mongo.write_error" f none
  | .command code name message =>
    ⟨some "mongo.command_error", some code, if name.isEmpty then none else some name, some message,
      none⟩
  | .insertMany (f :: _) _ => writeReport "mongo.insert_many_error" f (some (detailsOf f))
  | .insertMany [] (some f) => writeReport "mongo.insert_many_error" f none
  | .insertMany [] none => { ErrorInfo.empty with kind := some "mongo.insert_many_error" }
  | .authentication m => .ofMessage "mongo.authentication_error" m
  | .invalidArgument m => .ofMessage "mongo.invalid_argument" m
  | .serverSelection m => .ofMessage "mongo.server_selection_error" m
  | .other m => { ErrorInfo.empty with message := some m }

/-! Errors as a server sends them -/

/-- A number with 32 bits under the key `code`. -/
def codeOf? (d : Document) : Option Int := (Bson.get? "code" d).bind Bson.toInt?

/-- The text under a key, empty when it is not there. -/
def textOf (key : String) (d : Document) : String := ((Bson.get? key d).bind Bson.toStr?).getD ""

/-- A write fault as a server sends it. -/
def writeFaultOf? (d : Document) : Option WriteFault := do
  let code ← codeOf? d
  return ⟨code, textOf "errmsg" d, (Bson.get? "errInfo" d).bind Bson.toDoc?⟩

/-- A command error as a server sends it. -/
def commandOf? (d : Document) : Option DocumentFault := do
  let code ← codeOf? d
  return .command code (textOf "codeName" d) (textOf "errmsg" d)

/-- The faults of a batch as a server sends them. -/
def insertManyOf? (d : Document) : Option DocumentFault := do
  let writes ← match Bson.get? "writeErrors" d with
    | some (.arr items) => items.mapM fun w => w.toDoc?.bind writeFaultOf?
    | _ => some []
  let concern := ((Bson.get? "writeConcernError" d).bind Bson.toDoc?).bind writeFaultOf?
  return .insertMany writes concern

/-- An error without a number, as the connection words it. -/
def worded (text : String) : DocumentFault := .other ("Kind: " ++ text ++ ", labels: \x7b\x7d")

def sessionsNotSupported : DocumentFault :=
  worded "Attempted to start a session on a deployment that does not support sessions"

def shutDown : DocumentFault := worded "Client has been shut down"

def resumeTokenMissing : DocumentFault :=
  worded "Cannot provide resume functionality when the resume token is missing"

/-- A reply that cannot be read. -/
def invalidReply (text : String) : DocumentFault :=
  worded ("The server returned an invalid reply to a database operation: " ++ text)

end DocumentFault

/-! ## Key-value servers -/

/-- An error of a key-value server, or of the way to it. -/
inductive KeyValueFault where
  /-- One of the known kinds: its name, what it is about in general, and in particular. -/
  | known (kind description : String) (detail : Option String)
  /-- A code word that is not known. -/
  | extension (code : String) (detail : Option String)
deriving Inhabited

namespace KeyValueFault

/-- The code words of replies, by kind of error. -/
def codeWords : List (String × String) :=
  [("ResponseError", "ERR"), ("ExecAbortError", "EXECABORT"), ("BusyLoadingError", "LOADING"),
    ("NoScriptError", "NOSCRIPT"), ("Moved", "MOVED"), ("Ask", "ASK"), ("TryAgain", "TRYAGAIN"),
    ("ClusterDown", "CLUSTERDOWN"), ("CrossSlot", "CROSSSLOT"), ("MasterDown", "MASTERDOWN"),
    ("ReadOnly", "READONLY"), ("NotBusy", "NOTBUSY")]

/-- What is said of a reply without a detail. -/
def signalled : String := "An error was signalled by the server"

/-- The error that a reply `-CODE detail` stands for. -/
def ofReply (code : String) (detail : Option String) : KeyValueFault :=
  match codeWords.find? fun w => w.2 == code with
  | some (kind, _) => .known kind signalled detail
  | none => .extension code detail

/-- The code word. -/
def code? : KeyValueFault → Option String
  | .known kind _ _ => Members.find? kind codeWords
  | .extension code _ => some code

/-- The kind of the error. -/
def kindName : KeyValueFault → String
  | .known kind _ _ => kind
  | .extension _ _ => "ExtensionError"

/-- The detail, or what is said without one. -/
def text : KeyValueFault → String
  | .known _ _ (some detail) => detail
  | .known kind description none => description ++ "- " ++ kind
  | .extension _ (some detail) => detail
  | .extension _ none => "Unknown extension error encountered"

/-- The report of an error. -/
def report (f : KeyValueFault) : ErrorInfo :=
  ⟨some ("redis." ++ Text.lowercase f.kindName), none, f.code?, some f.text, none⟩

end KeyValueFault

/-! ## Relational servers -/

/-- An error of a relational server, or of the way to it. -/
inductive RelationalFault where
  /-- The server's own error: number, state, message. -/
  | server (number : Option Int) (state : Option String) (message : String)
  | rowNotFound
  | poolTimedOut
  | poolClosed
  | workerCrashed
  | protocol (text : String)
  | columnNotFound (name : String)
  | typeNotFound (name : String)
  | decode (text : String)
  | configuration (text : String)
  | communication (text : String)
  | columnDecode (index text : String)
  | columnIndex (index len : Nat)
deriving Inhabited

namespace RelationalFault

/-- The error in words; for an error of the server, its message. -/
def text : RelationalFault → String
  | .server _ _ m => m
  | .rowNotFound => "no rows returned by a query that expected to return at least one row"
  | .poolTimedOut => "pool timed out while waiting for an open connection"
  | .poolClosed => "attempted to acquire a connection on a closed pool"
  | .workerCrashed => "attempted to communicate with a crashed background worker"
  | .protocol t => "encountered unexpected or invalid data: " ++ t
  | .columnNotFound n => "no column found for name: " ++ n
  | .typeNotFound n => "type named " ++ n ++ " not found"
  | .decode t => "error occurred while decoding: " ++ t
  | .configuration t => "error with configuration: " ++ t
  | .communication t => "error communicating with database: " ++ t
  | .columnDecode i t => "column " ++ i ++ ": " ++ t
  | .columnIndex i n =>
    "column index out of bounds: the len is " ++ toString n ++ ", but the index is " ++ toString i

/-- The report of an error. -/
def report : RelationalFault → ErrorInfo
  | .server number state m => ⟨some "mysql.server_error", number, state, some m, none⟩
  | f@(.columnDecode _ _) => .ofMessage "mysql.decode_error" f.text
  | f => .ofMessage "mysql.client_error" f.text

end RelationalFault
end Polyshell
