/-
  Cells of a result, from the bytes that the server sent to the text that is shown.

  A column says what its cells are; `Column.readings` lists, in order, the ways in which they may be
  read, and a cell is shown by the first way that succeeds.  Whole numbers, doubles, decimals and
  times are shown as they read back, so that a text that is no such value is not taken for one.  A
  cell that no way can read is shown by the name of its column's type in angle brackets.
-/
import Polyshell.Decimal.Fixed
import Polyshell.Calendar
import Polyshell.Double.Text
import Polyshell.Json.Reader
import Polyshell.Json.Printer
import Polyshell.Text.Utf8

namespace Polyshell.Sql

open Polyshell.Text

/-! ## Columns -/

/-- What the cells of a column are. -/
inductive ColumnType where
  | tiny
  | short
  | medium
  | long
  | longLong
  | float
  | double
  | decimal
  | null
  | timestamp
  | date
  | time
  | datetime
  | year
  | bit
  | varChar
  | varString
  | char
  | tinyBlob
  | mediumBlob
  | longBlob
  | blob
  | enumeration
  | set
  | geometry
  | json
deriving DecidableEq, Repr, Inhabited

/-- A column. -/
structure Column where
  name : String
  type : ColumnType
  unsigned : Bool
  binary : Bool
  /-- A column of names that travel as text. -/
  named : Bool
  /-- How wide the cells are at most. -/
  length : Nat
deriving DecidableEq, Repr, Inhabited

namespace Column

def isWhole (c : Column) : Bool :=
  [ColumnType.tiny, .short, .medium, .long, .longLong].contains c.type

def isTextual (c : Column) : Bool :=
  [ColumnType.tinyBlob, .mediumBlob, .longBlob, .blob, .char, .varString, .varChar,
    .enumeration].contains c.type

/-- A name with a remark that some columns carry. -/
def nameWith (name : String) (remark : Bool) : String := if remark then name ++ " UNSIGNED" else name

/-- The name of the column's type. -/
def typeName (c : Column) : String :=
  match c.type with
  | .tiny => if c.length = 1 then "BOOLEAN" else nameWith "TINYINT" c.unsigned
  | .short => nameWith "SMALLINT" c.unsigned
  | .medium => nameWith "MEDIUMINT" c.unsigned
  | .long => nameWith "INT" c.unsigned
  | .longLong => nameWith "BIGINT" c.unsigned
  | .float => "FLOAT"
  | .double => "DOUBLE"
  | .decimal => "DECIMAL"
  | .null => "NULL"
  | .timestamp => "TIMESTAMP"
  | .date => "DATE"
  | .time => "TIME"
  | .datetime => "DATETIME"
  | .year => "YEAR"
  | .bit => "BIT"
  | .varChar => if c.binary then "VARBINARY" else "VARCHAR"
  | .varString => if c.binary then "VARBINARY" else "VARCHAR"
  | .char => if c.binary then "BINARY" else if c.named then "ENUM" else "CHAR"
  | .tinyBlob => if c.binary then "TINYBLOB" else "TINYTEXT"
  | .mediumBlob => if c.binary then "MEDIUMBLOB" else "MEDIUMTEXT"
  | .longBlob => if c.binary then "LONGBLOB" else "LONGTEXT"
  | .blob => if c.binary then "BLOB" else "TEXT"
  | .enumeration => "ENUM"
  | .set => "SET"
  | .geometry => "GEOMETRY"
  | .json => "JSON"

end Column

/-! ## Dates and times -/

/-- Two digits. -/
def twoDigits (n : Nat) : List Char := Instant.padded 2 n

/-- A year as dates show it: with a sign outside 0 … 9999. -/
def yearText (y : Int) : List Char :=
  (if y < 0 then ['-'] else if 9999 < y then ['+'] else []) ++ Instant.padded 4 y.natAbs

/-- A date off the front. -/
def dayText? (s : List Char) : Option (List Char × List Char) := do
  let (year, s) ← Instant.readYear? s
  let s ← Instant.expect? '-' s
  let (month, s) ← Instant.shortNumber? 2 s
  let s ← Instant.expect? '-' s
  let (day, s) ← Instant.shortNumber? 2 s
  if (CalendarDate.mk year month day).isValid && -262143 ≤ year && year ≤ 262142 then
    return (yearText year ++ '-' :: twoDigits month ++ '-' :: twoDigits day, s)
  else none

/-- A time of day up to the end; a fraction of a second is not shown. -/
def clockText? (s : List Char) : Option (List Char) := do
  let (hour, s) ← Instant.shortNumber? 2 s
  let s ← Instant.expect? ':' s
  let (minute, s) ← Instant.shortNumber? 2 s
  let s ← Instant.expect? ':' s
  let (second, s) ← Instant.shortNumber? 2 s
  let (_, s) ← Instant.readFraction? s
  if s.isEmpty && hour ≤ 23 && minute ≤ 59 && second ≤ 60 then
    return twoDigits hour ++ ':' :: twoDigits minute ++ ':' :: twoDigits second
  else none

/-- A date alone. -/
def dateText? (s : List Char) : Option (List Char) := do
  let (day, r) ← dayText? s
  if r.isEmpty then return day else none

/-- A date and a time with a space between them. -/
def momentText? (s : List Char) : Option (List Char) := do
  let (day, r) ← dayText? s
  let r ← Instant.expect? ' ' r
  let clock ← clockText? r
  return day ++ ' ' :: clock

/-! ## Readings -/

/-- A way to read a cell. -/
inductive Reading where
  | unsigned
  | signed
  | truth
  | double
  | decimal
  | text
  | moment
  | date
  | time
  | json
  | bytes
deriving DecidableEq, Repr

namespace Reading

/-- All ways, in the order in which they are tried. -/
def all : List Reading :=
  [.unsigned, .signed, .truth, .double, .decimal, .text, .moment, .date, .time, .json, .bytes]

/-- Whether a way suits a column.  A column without a type suits all. -/
def suits (c : Column) (r : Reading) : Bool :=
  c.type = .null ||
  match r with
  | .unsigned => c.unsigned && (c.isWhole || c.type = .year || c.type = .bit)
  | .signed => !c.unsigned && c.isWhole
  | .truth => c.isWhole || c.type = .bit
  | .double => c.type = .float || c.type = .double
  | .decimal => c.type = .decimal
  | .text => c.isTextual && !c.binary
  | .moment => c.type = .datetime || c.type = .timestamp
  | .date => c.type = .date
  | .time => c.type = .time
  | .json => c.type = .json || c.isTextual
  | .bytes => c.isTextual

/-- The number that bytes stand for, the most significant first, in 64 bits. -/
def bigEndian (bytes : List UInt8) : Nat :=
  bytes.foldl (fun n b => (n * 256 + b.toNat) % Nat.pow 2 64) 0

/-- Two lower-case hexadecimal digits for each byte. -/
def hexText (bytes : List UInt8) : List Char :=
  bytes.flatMap fun b => [Nat.digitChar (b.toNat / 16), Nat.digitChar (b.toNat % 16)]

/-- What is shown for a cell that is text. -/
def ofText? (r : Reading) (s : List Char) : Option String :=
  match r with
  | .unsigned => (Decimal.readNat? Decimal.maxWord64 s).map toString
  | .signed => (Decimal.readInt64? s).map toString
  | .truth => (Decimal.read? (-128) 127 s).map fun i => if i = 0 then "0" else "1"
  | .double => (Double.read? s).map Double.plain
  | .decimal => (Decimal.Fixed.read? s).map Decimal.Fixed.text
  | .text => some (String.ofList s)
  | .moment => (momentText? s).map String.ofList
  | .date => (dateText? s).map String.ofList
  | .time => (clockText? s).map String.ofList
  | .json => (Json.read s).toOption.map Json.compact
  | .bytes => some (String.ofList s)

/-- What is shown for a cell that is read this way. -/
def show? (c : Column) (bytes : List UInt8) (r : Reading) : Option String :=
  if r = .unsigned && c.type = .bit then some (toString (bigEndian bytes))
  else match Utf8.decode? bytes with
    | some s => r.ofText? s
    | none => if r = .bytes then some ("0x" ++ String.ofList (hexText bytes)) else none

end Reading

/-- The ways in which the cells of a column may be read. -/
def Column.readings (c : Column) : List Reading := Reading.all.filter (Reading.suits c)

/-- What is shown for a cell; nothing for SQL's null. -/
def cellText (c : Column) (cell : Option (List UInt8)) : Option String :=
  cell.map fun bytes =>
    (c.readings.findSome? (Reading.show? c bytes)).getD ("<" ++ c.typeName ++ ">")

example : cellText ⟨"n", .tiny, false, false, false, 4⟩ (some "x".toUTF8.toList) =
    some "<TINYINT>" := by decide +kernel
example : cellText ⟨"d", .datetime, false, true, false, 26⟩
    (some "2024-02-29 10:00:00.500".toUTF8.toList) = some "2024-02-29 10:00:00" := by
  decide +kernel
example : cellText ⟨"b", .blob, false, true, false, 9⟩ (some [255, 1]) = some "0xff01" := by
  decide +kernel

end Polyshell.Sql
