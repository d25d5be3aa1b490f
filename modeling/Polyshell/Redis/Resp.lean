/-
  The wire form of replies.

  A reply starts with a byte that tells its type.  Scalars stand on the rest of that line; texts of
  a given length follow on the next one; containers give the number of their items, which follow as
  replies.  `read` takes one reply off the front of the bytes and leaves the rest.  Containers may
  be nested a hundred deep.
-/
import Polyshell.Redis.Reply
import Polyshell.Text.Blank

namespace Polyshell.Redis.Resp

open Polyshell.Text

/-- The bytes before the first line end, and those behind it. -/
def line? : List UInt8 → Option (List UInt8 × List UInt8)
  | 13 :: 10 :: r => some ([], r)
  | b :: r => (line? r).map fun p => (b :: p.1, p.2)
  | [] => none

/-- A line of text. -/
def textLine? (bytes : List UInt8) : Option (List Char × List UInt8) := do
  let (l, r) ← line? bytes
  let cs ← Utf8.decode? l
  return (cs, r)

/-- A line that holds a whole number. -/
def intLine? (bytes : List UInt8) : Option (Int × List UInt8) := do
  let (cs, r) ← textLine? bytes
  let i ← Decimal.readInt64? (trim cs)
  return (i, r)

/-- Bytes of a given number, with a line end behind them. -/
def block? (n : Nat) (bytes : List UInt8) : Option (List UInt8 × List UInt8) :=
  if (bytes.take n).length = n then
    match bytes.drop n with
    | 13 :: 10 :: r => some (bytes.take n, r)
    | _ => none
  else none

/-- A length and so many bytes, as text. -/
def blob? (bytes : List UInt8) : Option (List Char × List UInt8) := do
  let (n, r) ← intLine? bytes
  if n < 0 then none
  else
    let (b, r) ← block? n.toNat r
    return (Utf8.decodeLossy b, r)

/-- An error: its code word, and the rest of the line if there is one. -/
def failureOf (cs : List Char) : Reply :=
  match cut ' ' cs with
  | (code, detail) => .failure (String.ofList code) (detail.map String.ofList)

/-- A whole number of any size; underscores may divide its digits. -/
def bigNumber? (cs : List Char) : Option Int :=
  let (negative, body) := match cs with
    | '-' :: r => (true, r)
    | '+' :: r => (false, r)
    | r => (false, r)
  let ds := body.filter (· != '_')
  if body.head? != some '_' && Decimal.allDigits ds then
    let n : Int := Decimal.value ds
    some (if negative then -n else n)
  else none

/-- Neighbours made into pairs. -/
def pairs : List Reply → List (Reply × Reply)
  | k :: v :: r => (k, v) :: pairs r
  | _ => []

/-- So many replies one after another. -/
def sequence? (item : List UInt8 → Option (Reply × List UInt8)) : Nat → List UInt8 →
    Option (List Reply × List UInt8)
  | 0, bytes => some ([], bytes)
  | n + 1, bytes => do
    let (v, r) ← item bytes
    let (vs, r) ← sequence? item n r
    return (v :: vs, r)

/-- A length and so many replies; nothing for a negative length. -/
def items? (item : List UInt8 → Option (Reply × List UInt8)) (perItem : Nat)
    (bytes : List UInt8) : Option (Option (List Reply) × List UInt8) := do
  let (n, r) ← intLine? bytes
  if n < 0 then return (none, r)
  else
    let (vs, r) ← sequence? item (n.toNat * perItem) r
    return (some vs, r)

/-- What the server sent unasked: its kind comes first. -/
def pushOf? : List Reply → Option Reply
  | [] => some (.push "" [])
  | .bulk kind :: r => (Utf8.decode? kind).map fun k => .push (String.ofList k) r
  | .simple kind :: r => some (.push kind r)
  | _ => none

/-- One reply off the front, with at most `depth` containers nested in it. -/
def read? : (depth : Nat) → List UInt8 → Option (Reply × List UInt8)
  | 0, _ => none
  | _ + 1, [] => none
  | depth + 1, tag :: bytes =>
    let item := read? depth
    match Char.ofNat tag.toNat with
    | '+' => do
      let (cs, r) ← textLine? bytes
      return (if cs = ['O', 'K'] then .okay else .simple (String.ofList cs), r)
    | ':' => do
      let (i, r) ← intLine? bytes
      return (.int i, r)
    | '$' => do
      let (n, r) ← intLine? bytes
      if n < 0 then return (.nil, r)
      else
        let (b, r) ← block? n.toNat r
        return (.bulk b, r)
    | '*' => do
      let (vs, r) ← items? item 1 bytes
      return ((vs.map .array).getD .nil, r)
    | '~' => do
      let (vs, r) ← items? item 1 bytes
      return ((vs.map .set).getD .nil, r)
    | '%' => do
      let (vs, r) ← items? item 2 bytes
      let vs ← vs
      return (.map (pairs vs), r)
    | '|' => do
      let (vs, r) ← items? item 2 bytes
      let vs ← vs
      let (data, r) ← item r
      return (.attribute data (pairs vs), r)
    | '>' => do
      let (vs, r) ← items? item 1 bytes
      let v ← pushOf? (vs.getD [])
      return (v, r)
    | '-' => do
      let (cs, r) ← textLine? bytes
      return (failureOf cs, r)
    | '!' => do
      let (cs, r) ← blob? bytes
      return (failureOf cs, r)
    | '_' => do
      let (_, r) ← textLine? bytes
      return (.nil, r)
    | ',' => do
      let (cs, r) ← textLine? bytes
      let x ← Double.read? (trim cs)
      return (.double x, r)
    | '#' => do
      let (cs, r) ← textLine? bytes
      if cs = ['t'] then return (.bool true, r)
      else if cs = ['f'] then return (.bool false, r)
      else none
    | '=' => do
      let (cs, r) ← blob? bytes
      match cut ':' cs with
      | (format, some text) => return (.verbatim (String.ofList format) (String.ofList text), r)
      | (_, none) => none
    | '(' => do
      let (cs, r) ← textLine? bytes
      let i ← bigNumber? cs
      return (.bigNumber i, r)
    | _ => none

/-- How deep replies may be nested. -/
def maxDepth : Nat := 100

/-- The reply that the bytes start with. -/
def ofBytes? (bytes : List UInt8) : Option Reply := (read? maxDepth bytes).map Prod.fst

end Polyshell.Redis.Resp
