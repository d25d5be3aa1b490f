/-
  Reading JSON text.

  The reader walks the text once, character by character.  Where it stops it reports a cause and a
  place; the place is kept as the number of bytes that were not read yet (`Fault.left`), which is
  the same for a reader that knows the whole text and for one that has only the rest of it, and is
  turned into a line and a column once, against the whole text (`Fault.message`).  A cause that
  concerns the character in front is placed behind that character, as if it had been read.

  What is accepted is JSON as the standard has it, with three limits: no more than a given number
  of nested containers, no number above the range of doubles, and no lone surrogate among the
  escapes.  A whole number keeps its value up to 64 bits; from there on, and with a fraction or an
  exponent, it is a double, computed from its first digits by one multiplication or division by a
  power of ten.  A key that comes twice keeps its first place and takes its last value.

  Nesting is the structural argument of `value`; the elements of one container are read by a loop
  over the rest of the text, which every turn makes shorter (its length serves as fuel).
-/
import Polyshell.Json
import Polyshell.Text.Utf8

namespace Polyshell.Json

open Polyshell.Text.Utf8 (byteLength hexValue?)

/-! ## Faults -/

/-- What is wrong with a text. -/
inductive Cause where
  | eofInValue
  | eofInList
  | eofInObject
  | eofInString
  | expectedValue
  | expectedIdent
  | expectedListEnd
  | expectedObjectEnd
  | expectedColon
  | keyNotString
  | trailingComma
  | trailingCharacters
  | controlCharacter
  | invalidEscape
  | invalidNumber
  | numberOutOfRange
  | loneSurrogate
  | endOfHexEscape
  | recursionLimit
deriving DecidableEq, Repr

/-- The cause in words. -/
def Cause.text : Cause → String
  | .eofInValue => "EOF while parsing a value"
  | .eofInList => "EOF while parsing a list"
  | .eofInObject => "EOF while parsing an object"
  | .eofInString => "EOF while parsing a string"
  | .expectedValue => "expected value"
  | .expectedIdent => "expected ident"
  | .expectedListEnd => "expected `,` or `]`"
  | .expectedObjectEnd => "expected `,` or `\x7d`"
  | .expectedColon => "expected `:`"
  | .keyNotString => "key must be a string"
  | .trailingComma => "trailing comma"
  | .trailingCharacters => "trailing characters"
  | .controlCharacter => "control character (\\u0000-\\u001F) found while parsing a string"
  | .invalidEscape => "invalid escape"
  | .invalidNumber => "invalid number"
  | .numberOutOfRange => "number out of range"
  | .loneSurrogate => "lone leading surrogate in hex escape"
  | .endOfHexEscape => "unexpected end of hex escape"
  | .recursionLimit => "recursion limit exceeded"

/-- A cause, and how many bytes of the text lie behind its place. -/
structure Fault where
  cause : Cause
  left : Nat
deriving DecidableEq, Repr

/-- A fault at the point that was reached. -/
def failAt {α : Type} (cause : Cause) (rest : List Char) : Except Fault α :=
  .error ⟨cause, byteLength rest⟩

/-- A fault that the first byte of the character in front is to blame for. -/
def failPast {α : Type} (cause : Cause) (rest : List Char) : Except Fault α :=
  .error ⟨cause, byteLength rest - 1⟩

/-- The line and the column of a place: lines start at 1, and a column counts the bytes since the
    last line feed. -/
def position (text : List Char) (left : Nat) : Nat × Nat :=
  go text (byteLength text - left) 1 0
where
  /-- Walks over `bytes` bytes. -/
  go : List Char → (bytes line column : Nat) → Nat × Nat
    | [], bytes, line, column => (line, column + bytes)
    | c :: r, bytes, line, column =>
      if bytes < c.utf8Size then (line, column + bytes)
      else if c = '\n' then go r (bytes - 1) (line + 1) 0
      else go r (bytes - c.utf8Size) line (column + c.utf8Size)

/-- The fault in words, with its place in `text`. -/
def Fault.message (f : Fault) (text : List Char) : String :=
  let (line, column) := position text f.left
  f.cause.text ++ " at line " ++ toString line ++ " column " ++ toString column

/-! ## Blanks and names -/

/-- The blanks of JSON. -/
def isSpace (c : Char) : Bool := c = ' ' || c = '\n' || c = '\t' || c = '\r'

/-- The text from its next token on. -/
def skipSpace (s : List Char) : List Char := s.dropWhile isSpace

/-- The rest of a name whose first character told which it is. -/
def readName : (name s : List Char) → Except Fault (List Char)
  | [], s => .ok s
  | _ :: _, [] => failAt .eofInValue []
  | a :: name, c :: r => if c = a then readName name r else failPast .expectedIdent (c :: r)

/-! ## Strings -/

/-- Four hexadecimal digits.  They are counted in bytes, so a wider character among them may
    already end in the fifth. -/
def readHex4 (s : List Char) : Except Fault (Nat × List Char) :=
  match s with
  | a :: b :: c :: d :: r =>
    match hexValue? a, hexValue? b, hexValue? c, hexValue? d with
    | some a, some b, some c, some d => .ok (((a * 16 + b) * 16 + c) * 16 + d, r)
    | _, _, _, _ => .error ⟨.invalidEscape, byteLength s - 4⟩
  | _ => if byteLength s < 4 then failAt .eofInString [] else .error ⟨.invalidEscape, byteLength s - 4⟩

/-- The character that the escape `\u` stands for: one unit, or a pair of surrogates. -/
def readUnicodeEscape (s : List Char) : Except Fault (Char × List Char) := do
  let (n, r) ← readHex4 s
  if 0xDC00 ≤ n && n ≤ 0xDFFF then failAt .loneSurrogate r
  else if n < 0xD800 || 0xDBFF < n then return (Char.ofNat n, r)
  else match r with
    | '\\' :: 'u' :: r' => do
      let (m, r'') ← readHex4 r'
      if m < 0xDC00 || 0xDFFF < m then failAt .loneSurrogate r''
      else return (Char.ofNat ((n - 0xD800) * 0x400 + (m - 0xDC00) + 0x10000), r'')
    | '\\' :: r' => if r'.isEmpty then failAt .eofInString r' else failPast .endOfHexEscape r'
    | [] => failAt .eofInString []
    | _ => failPast .endOfHexEscape r

/-- The character that an escape stands for, behind the backslash. -/
def readEscape : List Char → Except Fault (Char × List Char)
  | [] => failAt .eofInString []
  | '"' :: r => .ok ('"', r)
  | '\\' :: r => .ok ('\\', r)
  | '/' :: r => .ok ('/', r)
  | 'b' :: r => .ok ('\x08', r)
  | 'f' :: r => .ok ('\x0c', r)
  | 'n' :: r => .ok ('\n', r)
  | 'r' :: r => .ok ('\r', r)
  | 't' :: r => .ok ('\t', r)
  | 'u' :: r => readUnicodeEscape r
  | s => failPast .invalidEscape s

/-- A string behind its opening quote, up to and with its closing one. -/
def readString : (fuel : Nat) → List Char → Except Fault (List Char × List Char)
  | _, [] => failAt .eofInString []
  | 0, s => failAt .eofInString s
  | fuel + 1, c :: r =>
    if c = '"' then .ok ([], r)
    else if c = '\\' then do
      let (e, r') ← readEscape r
      let (cs, rest) ← readString fuel r'
      return (e :: cs, rest)
    else if c.toNat < 0x20 then failAt .controlCharacter r
    else do
      let (cs, rest) ← readString fuel r
      return (c :: cs, rest)

/-! ## Numbers -/

/-- The largest number that the leading digits are gathered in. -/
def gatherLimit : Nat := Decimal.maxWord64

/-- The double `n · 10^e`, computed in doubles: `n` is rounded once, the product or quotient with a
    power of ten a second time.  Below the reach of one power the quotient is taken in steps. -/
def scale (n : Nat) (e : Int) (rest : List Char) : Except Fault Double :=
  let x := Double.ofInt n
  if 308 < e then
    if x.isZero then .ok x else failAt .numberOutOfRange rest
  else if 0 ≤ e then
    let y := x.mul (Double.ofDecimal false 1 e)
    if y.isInfinite then failAt .numberOutOfRange rest else .ok y
  else .ok (shrink 3 x e)
where
  /-- Three steps bring every double to zero. -/
  shrink : (fuel : Nat) → Double → Int → Double
    | 0, x, e => if e < -308 then Double.zero false else x.div (Double.ofDecimal false 1 (-e))
    | fuel + 1, x, e =>
      if e < -308 then
        if x.isZero then x else shrink fuel (x.div (Double.ofDecimal false 1 308)) (e + 308)
      else x.div (Double.ofDecimal false 1 (-e))

/-- The sign put on a double. -/
def withSign (negative : Bool) (x : Double) : Double := if negative then x.negate else x

/-- The number behind the mark of an exponent. -/
def readExponent (negative : Bool) (n : Nat) (start : Int) (s : List Char) : Except Fault (Double × List Char) :=
  let (down, ds) := match s with
    | '+' :: r => (false, r)
    | '-' :: r => (true, r)
    | r => (false, r)
  match ds with
  | [] => failAt .eofInValue []
  | c :: r =>
    if Decimal.isDigit c then gather down (Decimal.digitValue c) r
    else failPast .invalidNumber (c :: r)
where
  /-- Gathers the exponent while it fits a word of 32 bits. -/
  gather (down : Bool) (e : Nat) : List Char → Except Fault (Double × List Char)
    | [] => finish down e []
    | c :: r =>
      if Decimal.isDigit c then
        if 2147483647 < e * 10 + Decimal.digitValue c then
          if n ≠ 0 && !down then failAt .numberOutOfRange r
          else .ok (Double.zero negative, r.dropWhile Decimal.isDigit)
        else gather down (e * 10 + Decimal.digitValue c) r
      else finish down e (c :: r)
  /-- Puts the digits and the exponent together. -/
  finish (down : Bool) (e : Nat) (rest : List Char) : Except Fault (Double × List Char) := do
    let x ← scale n (if down then start - e else start + e) rest
    return (withSign negative x, rest)

/-- The end of a number whose digits are all read: an exponent may follow. -/
def readTail (negative : Bool) (n : Nat) (e : Int) (s : List Char) : Except Fault (Double × List Char) :=
  match s with
  | c :: r =>
    if c = 'e' || c = 'E' then readExponent negative n e r
    else do return (withSign negative (← scale n e s), s)
  | [] => do return (withSign negative (← scale n e []), [])

/-- The digits behind a point; those that no longer fit are passed over. -/
def readFraction (negative : Bool) (before : Int) (n : Nat) (s : List Char) : Except Fault (Double × List Char) :=
  gather n 0 s
where
  /-- Gathers digits; `after` counts them. -/
  gather (n after : Nat) : List Char → Except Fault (Double × List Char)
    | [] => if after = 0 then failPast .eofInValue [] else readTail negative n (before - after) []
    | c :: r =>
      if Decimal.isDigit c then
        if gatherLimit < n * 10 + Decimal.digitValue c then
          readTail negative n (before - after) (r.dropWhile Decimal.isDigit)
        else gather (n * 10 + Decimal.digitValue c) (after + 1) r
      else if after = 0 then failPast .invalidNumber (c :: r)
      else readTail negative n (before - after) (c :: r)

/-- A whole number too long to gather: the further digits only move the point. -/
def readLong (negative : Bool) (n : Nat) : (e : Nat) → List Char → Except Fault (Double × List Char)
  | e, [] => readTail negative n e []
  | e, c :: r =>
    if Decimal.isDigit c then readLong negative n (e + 1) r
    else if c = '.' then readFraction negative e n r
    else readTail negative n e (c :: r)

/-- A whole number that fits, unless a point or an exponent makes it a double.  A negative zero,
    and a negative number below 64 bits, are doubles as well. -/
def finishWhole (negative : Bool) (n : Nat) (s : List Char) : Except Fault (Number × List Char) :=
  match s with
  | '.' :: r => do
    let (x, rest) ← readFraction negative 0 n r
    return (.real x, rest)
  | c :: r =>
    if c = 'e' || c = 'E' then do
      let (x, rest) ← readExponent negative n 0 r
      return (.real x, rest)
    else .ok (whole, s)
  | [] => .ok (whole, s)
where
  /-- The number without fraction and exponent. -/
  whole : Number :=
    if !negative then .int n
    else if n = 0 || Nat.pow 2 63 < n then .real (Double.ofInt n).negate
    else .int (-(n : Int))

/-- The digits of a whole number behind its first one, which is not zero. -/
def readWhole (negative : Bool) : (n : Nat) → List Char → Except Fault (Number × List Char)
  | n, [] => finishWhole negative n []
  | n, c :: r =>
    if Decimal.isDigit c then
      if gatherLimit < n * 10 + Decimal.digitValue c then do
        let (x, rest) ← readLong negative n 0 (c :: r)
        return (.real x, rest)
      else readWhole negative (n * 10 + Decimal.digitValue c) r
    else finishWhole negative n (c :: r)

/-- A number behind its sign. -/
def readNumber (negative : Bool) : List Char → Except Fault (Number × List Char)
  | [] => failAt .eofInValue []
  | '0' :: r =>
    match r with
    | c :: _ => if Decimal.isDigit c then failPast .invalidNumber r else finishWhole negative 0 r
    | [] => finishWhole negative 0 r
  | c :: r =>
    if Decimal.isDigit c then readWhole negative (Decimal.digitValue c) r
    else failPast .invalidNumber (c :: r)

/-! ## Containers -/

/-- The elements of an array from the first one on, with its closing bracket. -/
def readElements (item : List Char → Except Fault (Json × List Char)) : (fuel : Nat) → List Char →
    Except Fault (List Json × List Char)
  | 0, s => failPast .eofInList s
  | fuel + 1, s => do
    let (v, r) ← item s
    match skipSpace r with
    | [] => failPast .eofInList []
    | ']' :: rest => return ([v], rest)
    | ',' :: r' =>
      match skipSpace r' with
      | [] => failPast .eofInValue []
      | ']' :: e => failPast .trailingComma (']' :: e)
      | next => do
        let (vs, rest) ← readElements item fuel next
        return (v :: vs, rest)
    | other => failPast .expectedListEnd other

/-- The members of an object from the first key on, with its closing brace. -/
def readMembers (item : List Char → Except Fault (Json × List Char)) : (fuel : Nat) → List Char →
    Except Fault (List (String × Json) × List Char)
  | 0, s => failPast .eofInObject s
  | fuel + 1, s =>
    match s with
    | '"' :: k => do
      let (key, r) ← readString k.length k
      match skipSpace r with
      | [] => failPast .eofInObject []
      | ':' :: r' => do
        let (v, r'') ← item r'
        match skipSpace r'' with
        | [] => failPast .eofInObject []
        | '\x7d' :: rest => return ([(String.ofList key, v)], rest)
        | ',' :: r''' =>
          match skipSpace r''' with
          | [] => failPast .eofInValue []
          | '\x7d' :: e => failPast .trailingComma ('\x7d' :: e)
          | next => do
            let (ms, rest) ← readMembers item fuel next
            return ((String.ofList key, v) :: ms, rest)
        | other => failPast .expectedObjectEnd other
      | other => failPast .expectedColon other
    | other => failPast .keyNotString other

/-- A value, with at most `depth` containers nested in it. -/
def readValue : (depth : Nat) → List Char → Except Fault (Json × List Char)
  | depth, s =>
    match skipSpace s with
    | [] => failPast .eofInValue []
    | 'n' :: r => do return (.null, ← readName ['u', 'l', 'l'] r)
    | 't' :: r => do return (.bool true, ← readName ['r', 'u', 'e'] r)
    | 'f' :: r => do return (.bool false, ← readName ['a', 'l', 's', 'e'] r)
    | '-' :: r => do
      let (n, rest) ← readNumber true r
      return (.num n, rest)
    | '"' :: r => do
      let (cs, rest) ← readString r.length r
      return (.str (String.ofList cs), rest)
    | '[' :: r =>
      match depth with
      | 0 => failPast .recursionLimit ('[' :: r)
      | depth + 1 =>
        match skipSpace r with
        | [] => failPast .eofInList []
        | ']' :: rest => .ok (.arr [], rest)
        | first => do
          let (vs, rest) ← readElements (readValue depth) first.length first
          return (.arr vs, rest)
    | '\x7b' :: r =>
      match depth with
      | 0 => failPast .recursionLimit ('\x7b' :: r)
      | depth + 1 =>
        match skipSpace r with
        | [] => failPast .eofInObject []
        | '\x7d' :: rest => .ok (.obj [], rest)
        | first => do
          let (ms, rest) ← readMembers (readValue depth) first.length first
          return (.obj (Members.ofList ms), rest)
    | c :: r =>
      if Decimal.isDigit c then do
        let (n, rest) ← readNumber false (c :: r)
        return (.num n, rest)
      else failPast .expectedValue (c :: r)

/-- Only what follows the blanks counts. -/
theorem readValue_skipSpace (d : Nat) {s s' : List Char} (h : skipSpace s = skipSpace s') :
    readValue d s = readValue d s' := by
  rw [readValue.eq_1, readValue.eq_1, h]

/-- The one value that the whole text holds. -/
def readWithin (depth : Nat) (text : List Char) : Except Fault Json := do
  let (v, r) ← readValue depth text
  match skipSpace r with
  | [] => return v
  | other => failPast .trailingCharacters other

/-- How deep containers may be nested in a text that a user wrote. -/
def maxDepth : Nat := 127

/-- The one value that the whole text holds, within the usual depth. -/
def read (text : List Char) : Except Fault Json := readWithin maxDepth text

/-- The same with the fault put into words. -/
def parse (text : String) : Except String Json :=
  match read text.toList with
  | .ok v => .ok v
  | .error f => .error (f.message text.toList)

end Polyshell.Json
