/-
  SQL statements at work.

  A statement goes to the server as it is.  The first word of the statement says what is shown of the
  answer: the rows of a query, the counts of everything else.  A statement may be several at once and
  then has several results; rows are shown one after another under the names of the first row's
  columns, and the affected rows are added up.

  After a `USE` the server is asked which database is selected, and the pool remembers it, so that
  the session is in it again when its connection has to be opened anew.
-/
import Polyshell.Session
import Polyshell.Outcome
import Polyshell.Sql.Statement
import Polyshell.Sql.Table
import Polyshell.Sql.Cell

namespace Polyshell.Sql

/-! ## What goes over a connection -/

/-- How a connection is opened. -/
structure Login where
  host : String
  port : Nat
  username : Option String
  password : Option Secret
  database : Option String
deriving DecidableEq

/-- The login for a key; a blank database is none. -/
def Login.ofKey (k : PoolKey) : Login :=
  ⟨k.host, k.port, k.username, k.password,
    (k.database.map Text.trimmed).filter fun d => !d.isEmpty⟩

/-- What is asked of a server. -/
inductive Request where
  /-- Statements as they are. -/
  | query (text : String)
  /-- A single statement of the shell's own. -/
  | prepare (text : String)
deriving DecidableEq, Repr

/-- The result of one statement. -/
inductive ResultSet where
  | counts (affected lastInsertId : Nat)
  | rows (columns : List Column) (cells : List (List (Option (List UInt8))))
deriving DecidableEq, Repr, Inhabited

/-- What comes back: results, or what went wrong. -/
abbrev Answer := Except RelationalFault (List ResultSet)

/-- Work with relational servers; a connection is known by its number. -/
abbrev Work (α : Type) := Session Nat Request Answer (Except ShellError α)

/-! ## What is shown -/

/-- The rows of a result, each with its columns. -/
def ResultSet.rowList : ResultSet → List (List Column × List (Option (List UInt8)))
  | .counts _ _ => []
  | .rows columns cells => cells.map fun row => (columns, row)

def ResultSet.affected : ResultSet → Nat
  | .counts n _ => n
  | .rows _ _ => 0

def ResultSet.lastInsertId : ResultSet → Nat
  | .counts _ id => id
  | .rows _ _ => 0

/-- The rows of all results; the first row names the columns. -/
def rowSet (results : List ResultSet) : RowSet :=
  match results.flatMap ResultSet.rowList with
  | [] => ⟨[], []⟩
  | first :: others =>
    ⟨first.1.map Column.name,
      (first :: others).map fun row => List.zipWith cellText row.1 row.2⟩

/-- The counts of all results. -/
def summary (kind : StatementKind) (results : List ResultSet) : Summary :=
  ⟨kind, (results.map ResultSet.affected).foldl (· + ·) 0, none,
    (results.getLast?.map ResultSet.lastInsertId).getD 0⟩

/-- What is shown for a statement. -/
def resultText (style : TableStyle) (kind : StatementKind) (results : List ResultSet) : String :=
  if kind.returnsRows then (rowSet results).text style else (summary kind results).text

/-! ## The database after `USE` -/

/-- The statement that asks for it. -/
def askDatabase : String := "SELECT DATABASE()"

/-- The single text in the answer; nothing for SQL's null. -/
def scalarText (results : List ResultSet) : Except RelationalFault (Option String) :=
  match results.flatMap ResultSet.rowList with
  | (_, cell :: _) :: _ =>
    match cell with
    | none => .ok none
    | some bytes =>
      match Text.Utf8.decode? bytes with
      | some s => .ok (some (String.ofList s))
      | none => .error (.columnDecode "0" "invalid utf-8 sequence")
  | _ => .error .rowNotFound

/-- The answer to a statement, with the statement in its error. -/
def accepted (statement : String) (a : Answer) : Except ShellError (List ResultSet) :=
  a.mapError fun f => .ofRelational f (some statement)

/-- The database that is selected after a `USE`, which the pool remembers from then on. -/
def followUse (k : PoolKey) (h : Nat) (statement : String) : Work (Option String) :=
  (Session.send h (.prepare askDatabase)).bind fun answer =>
    match answer.bind scalarText with
    | .error f => .done (.error (.ofRelational f (some askDatabase)))
    | .ok selected =>
      match changedDatabase .use statement selected with
      | none => .done (.ok none)
      | some d => (Session.select k d).bind fun _ => .done (.ok (some d))

/-- What follows a statement that was carried out. -/
def follow (k : PoolKey) (h : Nat) (kind : StatementKind) (statement : String) :
    Work (Option String) :=
  if kind = .use then followUse k h statement else .done (.ok none)

/-- Carries a statement out. -/
def execute (style : TableStyle) (k : PoolKey) (statement : String) : Work Outcome :=
  (Session.acquire k).andThen fun h =>
    (Session.send h (.query statement)).bind fun answer =>
      match accepted statement answer with
      | .error e => .done (.error e)
      | .ok results =>
        (follow k h (classify statement) statement).andThen fun changed =>
          .done (.ok ⟨resultText style (classify statement) results, changed⟩)

end Polyshell.Sql
