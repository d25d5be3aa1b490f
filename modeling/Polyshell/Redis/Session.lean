/-
  Key-value commands at work.

  The words of a line are sent as they are, over the connection of the session; the reply is printed.
  An error anywhere in the reply fails the command.  After a `SELECT` that the server accepted the
  pool remembers the database, so that the session is in it again when its connection has to be
  opened anew.
-/
import Polyshell.Session
import Polyshell.Outcome
import Polyshell.Redis.Tokens
import Polyshell.Redis.Reply

namespace Polyshell.Redis

/-- The words of a command, as a server gets them. -/
abbrev Request := List String

/-- What comes back: a reply, or what went wrong on the way. -/
abbrev Answer := Except KeyValueFault Reply

/-- Work with key-value servers; a connection is known by its number. -/
abbrev Work (α : Type) := Session Nat Request Answer (Except ShellError α)

/-- The reply that a command has, if there is no error in it. -/
def accepted (a : Answer) : Except ShellError Reply :=
  match a with
  | .error f => .error (.ofKeyValue f)
  | .ok r =>
    match r.firstFailure? with
    | some (code, detail) => .error (.ofKeyValue (.ofReply code detail))
    | none => .ok r

/-- Has the pool remember the database that a `SELECT` named. -/
def remember (k : PoolKey) (words : Request) : Session Nat Request Answer Unit :=
  match selectIndex words with
  | some index => Session.select k index
  | none => .done ()

/-- Carries a command line out. -/
def execute (k : PoolKey) (line : String) : Work Outcome :=
  match tokenize line with
  | [] => .done (.error (.parse .emptyCommand))
  | words =>
    (Session.acquire k).andThen fun h =>
      (Session.send h words).bind fun answer =>
        match accepted answer with
        | .error e => .done (.error e)
        | .ok reply =>
          (remember k words).bind fun _ => .done (.ok ⟨reply.text, selectedDatabase words⟩)

end Polyshell.Redis
