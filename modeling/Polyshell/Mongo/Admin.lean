/-
  Commands about databases and servers.

  They are written `db.<operation>(…)`, and some of them `show <what>` as well.  As with operations on
  collections, arguments are read before anything is sent.  Most of them are one command document
  whose reply is shown as it is.
-/
import Polyshell.Mongo.Operation
import Polyshell.Mongo.Request

namespace Polyshell.Mongo

/-- A command about a database or a server. -/
inductive Admin where
  /-- The names of all databases. -/
  | databases
  /-- The names of the collections in the session's database. -/
  | collections
  | users
  | roles
  /-- The name of the session's database. -/
  | ownName
  | serverVersion
  | dropDatabase
  /-- A command document, whose reply is shown. -/
  | command (addressee : Addressee) (d : Document)
deriving Inhabited

namespace Admin

/-! ## Reading -/

/-- A command document: given as an object, or by the name of the command alone. -/
def commandArgument (operation : String) : List Argument → Except ShellError Document
  | .str name :: _ => .ok [(name, .int32 1)]
  | .raw name :: _ => .ok [(name, .int32 1)]
  | a :: _ =>
    if a.isAbsent then required operation "a command document"
    else ofParse (a.toDocument operation)
  | [] => required operation "a command document"

/-- A document with the members of another put into it. -/
def extended (d more : Document) : Document := more.foldl (fun acc m => Members.put m.1 m.2 acc) d

/-- `stats`, in units of a given size. -/
def readStats (args : List Argument) : Except ShellError Admin :=
  .ok <| .command .own <|
    ("dbStats", .int32 1) ::
      ((args.head?.bind Argument.int64?).map fun n => ("scale", Bson.int64 n)).toList

/-- `createUser`: without roles unless some are named. -/
def readCreateUser (args : List Argument) : Except ShellError Admin := do
  let spec ← commandArgument "createUser" args
  match (Bson.get? "user" spec).bind Bson.toStr? with
  | none => badArgument "createUser" "`user` is required"
  | some user =>
    let roles : Document := if (Bson.get? "roles" spec).isSome then [] else [("roles", .arr [])]
    return .command .own
      (extended (("createUser", .str user) :: roles) (Members.erase "user" spec))

/-- `dropUser`. -/
def readDropUser (args : List Argument) : Except ShellError Admin :=
  (textArgument "dropUser" "a user name" args.head?).map fun user =>
    .command .own [("dropUser", .str user)]

/-- `createCollection`: options are passed on. -/
def readCreateCollection (args : List Argument) : Except ShellError Admin := do
  let name ← textArgument "createCollection" "a collection name" args.head?
  let options ← documentArgument "createCollection" args[1]?
  return .command .own (extended [("create", .str name)] options)

/-- The readers of these commands, by name. -/
def readers : List (String × (List Argument → Except ShellError Admin)) :=
  [("stats", readStats), ("serverStatus", fun _ => .ok (.command .admin [("serverStatus", .int32 1)])),
    ("createUser", readCreateUser), ("dropUser", readDropUser), ("getUsers", fun _ => .ok .users),
    ("createCollection", readCreateCollection), ("dropDatabase", fun _ => .ok .dropDatabase),
    ("runCommand", fun args => (commandArgument "runCommand" args).map (.command .own)),
    ("adminCommand", fun args => (commandArgument "adminCommand" args).map (.command .admin)),
    ("getCollectionNames", fun _ => .ok .collections), ("getName", fun _ => .ok .ownName),
    ("version", fun _ => .ok .serverVersion)]

/-- The command that a call asks for. -/
def ofCall (name : String) (args : List Argument) : Except ShellError Admin :=
  match Members.find? name readers with
  | some read => read args
  | none => .error (.unsupported (.operation name))

/-- What `show` lists. -/
def ofShow (target : String) : Except ShellError Admin :=
  if target = "dbs" || target = "databases" then .ok .databases
  else if target = "collections" then .ok .collections
  else if target = "users" then .ok .users
  else if target = "roles" then .ok .roles
  else .error (.parse (.unsupportedCommand ("show " ++ target)))

/-! ## Running -/

/-- The names in documents, sorted. -/
def sortedNames (ds : List Document) : Except DocumentFault Bson :=
  match ds.mapM fun d => (Bson.get? "name" d).bind Bson.toStr? with
  | some names => .ok (.arr ((names.mergeSort fun a b => decide (a ≤ b)).map .str))
  | none => .error (.invalidReply "expected \"name\" field in server response, but it was not found")

/-- The names of the databases in a reply. -/
def databaseNames (r : Document) : Except DocumentFault Bson := do
  let items ← Reply.list "databases" r
  let ds ← Reply.documentsOf items
  sortedNames ds

/-- What stands under a key of the reply, or nothing of it. -/
def part (key : String) (otherwise : Bson) (r : Document) : Except DocumentFault Bson :=
  .ok ((Bson.get? key r).getD otherwise)

/-- Carries a command out. -/
def run (c : Connection) : Admin → Work Bson
  | .databases =>
    askFor c .admin [("listDatabases", .int32 1), ("nameOnly", .bool true)] databaseNames
  | .collections =>
    (documents c .own
        [("listCollections", .int32 1), ("cursor", .doc []), ("nameOnly", .bool true)]).andThen
      fun ds => .done (sortedNames ds)
  | .users => askFor c .own [("usersInfo", .int32 1)] (part "users" (.arr []))
  | .roles =>
    askFor c .own [("rolesInfo", .int32 1), ("showBuiltinRoles", .bool true)]
      (part "roles" (.arr []))
  | .ownName => .done (.ok (.str c.database))
  | .serverVersion => askFor c .admin [("buildInfo", .int32 1)] (part "version" .null)
  | .dropDatabase =>
    (write c Reply.writeFault? [("dropDatabase", .int32 1)]).andThen fun _ =>
      .done (.ok (.doc [("ok", .int32 1), ("dropped", .str c.database)]))
  | .command _ [] =>
    .done (.error
      (.invalidArgument "an empty document cannot be passed to a run_command operation"))
  | .command addressee d => (ask c addressee d).andThen fun r => .done (.ok (.doc r))

end Admin
end Polyshell.Mongo
