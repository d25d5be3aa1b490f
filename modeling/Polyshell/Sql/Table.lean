/-
  Results of SQL statements as text.

  Rows are printed as a table: a heading with the names of the columns, a line for each row, and a
  frame in one of five styles.  A column is as wide as its widest line, with a space on either
  side; rows that are too short are filled up with empty cells; a cell of several lines makes its
  row that high.  A table without columns is empty.

  A statement without rows is summed up in one line that depends on its kind.
-/
import Polyshell.Sql.Statement
import Polyshell.Text.Width

namespace Polyshell.Sql

open Polyshell.Text

/-! ## Results -/

/-- Columns and text cells; a missing cell is SQL's null. -/
structure RowSet where
  columns : List String
  rows : List (List (Option String))
deriving DecidableEq, Repr, Inhabited

/-- What a statement without rows reports. -/
structure Summary where
  kind : StatementKind
  affected : Nat
  /-- The rows that an update matched, where that is known apart from those it changed. -/
  matched : Option Nat
  lastInsertId : Nat
deriving DecidableEq, Repr, Inhabited

/-! ## Styles -/

/-- The styles of tables, as configured. -/
inductive TableStyle where
  | ascii
  | psql
  | modern
  | rounded
  | markdown
deriving DecidableEq, Repr, Inhabited

/-- A horizontal line of a frame: left end, fill, crossing, right end. -/
structure Rule where
  left : String
  fill : Char
  cross : String
  right : String

/-- A frame.  Lines that a style does not have are missing. -/
structure Frame where
  top : Option Rule
  belowHeading : Option Rule
  betweenRows : Option Rule
  bottom : Option Rule
  /-- The uprights: left, inner, right. -/
  left : String
  inner : String
  right : String

namespace TableStyle

def name : TableStyle → String
  | .ascii => "ascii"
  | .psql => "psql"
  | .modern => "modern"
  | .rounded => "rounded"
  | .markdown => "markdown"

def all : List TableStyle := [.ascii, .psql, .modern, .rounded, .markdown]

/-- The style of exactly that name. -/
def ofName? (s : String) : Option TableStyle := all.find? fun t => t.name == s

def frame : TableStyle → Frame
  | .ascii =>
    let rule : Rule := ⟨"+", '-', "+", "+"⟩
    ⟨some rule, some rule, some rule, some rule, "|", "|", "|"⟩
  | .psql => ⟨none, some ⟨"", '-', "+", ""⟩, none, none, "", "|", ""⟩
  | .modern =>
    let rule : Rule := ⟨"├", '─', "┼", "┤"⟩
    ⟨some ⟨"┌", '─', "┬", "┐"⟩, some rule, some rule, some ⟨"└", '─', "┴", "┘"⟩, "│", "│", "│"⟩
  | .rounded =>
    ⟨some ⟨"╭", '─', "┬", "╮"⟩, some ⟨"├", '─', "┼", "┤"⟩, none, some ⟨"╰", '─', "┴", "╯"⟩,
      "│", "│", "│"⟩
  | .markdown => ⟨none, some ⟨"|", '-', "|", "|"⟩, none, none, "|", "|", "|"⟩

end TableStyle

/-! ## Layout -/

/-- The lines of a cell. -/
def cellLines (cell : String) : List (List Char) := splitAll '\n' cell.toList

/-- The widest line of a cell. -/
def cellWidth (cell : String) : Nat := ((cellLines cell).map width).foldl max 0

/-- The cells of a row, filled up to a number of columns. -/
def filled (columns : Nat) (row : List String) : List String :=
  row ++ List.replicate (columns - row.length) ""

/-- The width of each column. -/
def columnWidths (columns : Nat) (rows : List (List String)) : List Nat :=
  (List.range columns).map fun i => (rows.map fun r => cellWidth (r.getD i "")).foldl max 0

/-- A line of a cell with a space on either side and spaces up to the width of its column. -/
def paddedLine (columnWidth : Nat) (line : List Char) : String :=
  String.ofList (' ' :: (line ++ List.replicate (columnWidth - width line + 1) ' '))

/-- Pieces between uprights. -/
def upright (f : Frame) (pieces : List String) : String :=
  f.left ++ f.inner.intercalate pieces ++ f.right

/-- The lines of a row: as many as its highest cell has. -/
def rowLines (f : Frame) (widths : List Nat) (row : List String) : List String :=
  let cells := row.map cellLines
  let height := (cells.map List.length).foldl max 0
  (List.range height).map fun i =>
    upright f (List.zipWith (fun w c => paddedLine w (c.getD i [])) widths cells)

/-- A horizontal line over all columns. -/
def ruleLine (widths : List Nat) (r : Rule) : String :=
  r.left ++ r.cross.intercalate (widths.map fun w => String.ofList (List.replicate (w + 2) r.fill)) ++
    r.right

/-- A line of the frame, if the style has it. -/
def optionalRule (widths : List Nat) (r : Option Rule) : List String :=
  (r.map (ruleLine widths)).toList

/-- The lines behind the heading: every row but the first has a line of the frame above it. -/
def bodyLines (f : Frame) (widths : List Nat) : List (List String) → List String
  | [] => []
  | [row] => rowLines f widths row
  | row :: r => rowLines f widths row ++ optionalRule widths f.betweenRows ++ bodyLines f widths r

/-- A heading and rows of text as a table. -/
def tableText (style : TableStyle) (heading : List String) (rows : List (List String)) : String :=
  let columns := (heading :: rows).foldl (fun n r => max n r.length) 0
  if columns = 0 then ""
  else
    let f := style.frame
    let all := (heading :: rows).map (filled columns)
    let widths := columnWidths columns all
    "\n".intercalate <|
      optionalRule widths f.top ++ rowLines f widths (filled columns heading) ++
        optionalRule widths f.belowHeading ++ bodyLines f widths (rows.map (filled columns)) ++
        optionalRule widths f.bottom

/-- What stands for a missing cell. -/
def nullCell : String := "NULL"

/-- The rows of a result. -/
def RowSet.text (style : TableStyle) (r : RowSet) : String :=
  if r.rows.isEmpty then "Empty result set"
  else tableText style r.columns (r.rows.map fun row => row.map fun c => c.getD nullCell)

/-- The line for a statement without rows. -/
def Summary.text (s : Summary) : String :=
  let rows := toString s.affected ++ " row(s)"
  match s.kind with
  | .update =>
    match s.matched with
    | some m => "Updated " ++ rows ++ " (matched " ++ toString m ++ " row(s))"
    | none => "Updated " ++ rows
  | .insert => "Inserted " ++ rows ++ ", last insert ID: " ++ toString s.lastInsertId
  | .delete => "Deleted " ++ rows
  | .use => "Database changed"
  | _ => "Statement executed, affected rows: " ++ toString s.affected

end Polyshell.Sql
