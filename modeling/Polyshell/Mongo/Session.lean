/-
  Commands of the document shell at work.

  A command is read first; what cannot be read is refused without a connection.  Then the connection
  of the session is looked up, and only then the arguments are looked at (`Action.ofCommand`), still
  before anything is sent.  So a command that is refused for what it says has no effect but, perhaps,
  an open connection.

  `use` asks no server.  The pool remembers the database, and puts a handle for that database in
  place of the one it has; a connection that has to be opened later starts in it.
-/
import Polyshell.Outcome
import Polyshell.Bson.Text
import Polyshell.Mongo.Admin
import Polyshell.Mongo.Operation.Run

namespace Polyshell.Mongo

/-! ## Databases -/

/-- The database of a session for which none is named. -/
def defaultDatabase : String := "test"

/-- The database that a connection for a key starts in. -/
def startDatabase (k : PoolKey) : String :=
  ((k.database.map Text.trimmed).filter fun d => !d.isEmpty).getD defaultDatabase

/-- The same connection in another database. -/
def Connection.within (c : Connection) (database : String) : Connection :=
  { c with database := database }

/-! ## Actions -/

/-- What a command asks for. -/
inductive Action where
  | use (database : String)
  | admin (a : Admin)
  | query (collection : String) (q : Query)
  | operation (collection : String) (o : Operation)
deriving Inhabited

namespace Action

/-- The text that a shell command needs. -/
def firstText (c : Command) (what : String) : Except ShellError String :=
  textArgument c.operation what c.args.head?

/-- A command on a collection.  Calls chained to what is not a query are ignored. -/
def ofCollectionCommand (c : Command) : Except ShellError Action :=
  if Query.starters.contains c.operation then (Query.ofCommand c).map (.query c.collection)
  else (Operation.ofCall c.operation c.args).map (.operation c.collection)

/-- A command on no collection. -/
def ofShellCommand (c : Command) : Except ShellError Action :=
  if c.operation = "use" then (firstText c "a database name").map .use
  else if c.operation = "show" then
    ((firstText c "a show target").bind Admin.ofShow).map .admin
  else (Admin.ofCall c.operation c.args).map .admin

/-- What a command asks for. -/
def ofCommand (c : Command) : Except ShellError Action :=
  if c.onCollection then ofCollectionCommand c else ofShellCommand c

end Action

/-! ## Carrying commands out -/

/-- Work with document servers that can fail in every way. -/
abbrev Duty (α : Type) := Session Connection Request Answer (Except ShellError α)

/-- What is shown for an answer. -/
def answered (w : Work Bson) : Duty Outcome :=
  w.bind fun
    | .ok v => .done (.ok (.ofText v.text))
    | .error f => .done (.error (.ofDocument f))

/-- Switches the session to another database. -/
def switch (k : PoolKey) (c : Connection) (database : String) : Duty Outcome :=
  (Session.select k database).bind fun _ =>
    (Session.replace k (c.within database)).andThen fun _ =>
      .done (.ok ⟨"switched to db " ++ database, some database⟩)

/-- Carries out what a command asks for. -/
def Action.run (k : PoolKey) (c : Connection) (newId : NewIds) : Action → Duty Outcome
  | .use database => switch k c database
  | .admin a => answered (a.run c)
  | .query collection q => answered (q.fetch c collection)
  | .operation collection o => answered (o.run c collection newId)

/-- Carries a command out.  Identifiers for inserted documents are numbered behind those that the
    text of the command can ask for. -/
def execute (ambient : Ambient) (k : PoolKey) (text : String) : Duty Outcome :=
  match Command.parse ambient text with
  | .error e => .done (.error (.parse e))
  | .ok command =>
    (Session.acquire k).andThen fun c =>
      match Action.ofCommand command with
      | .error e => .done (.error e)
      | .ok a => a.run k c fun n => ambient.newId (text.length + n)

example : startDatabase ⟨.document, "h", 1, none, none, some "  ", none⟩ = "test" := by
  decide +kernel

end Polyshell.Mongo
