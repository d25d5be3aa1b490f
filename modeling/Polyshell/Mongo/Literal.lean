/-
  Relaxed literals rewritten to strict JSON.

  A user may write object and array literals more freely than JSON allows: keys without quotes,
  single-quoted strings, a comma behind the last element, `undefined`, and calls that construct
  identifiers, dates and numbers.  `strictText` rewrites such a text to JSON and leaves everything
  else alone; whether the result is JSON is for the JSON reader to say.

  The rewriting goes through the text once and keeps what it has written, last character first.
  Two decisions look at that: a closing bracket takes back a comma that was written last, and a
  word is a key only directly behind an opening brace or a comma (and in front of a colon).

  A constructor without an argument makes something new: an identifier that no one has, or the
  present instant.  Where these come from is the `Ambient` of the command.
-/
import Polyshell.Mongo.Calls
import Polyshell.Json.Printer
import Polyshell.Bson.ObjectId

namespace Polyshell.Mongo

open Polyshell.Text

/-- What a literal may take from outside its text. -/
structure Ambient where
  /-- The present, in milliseconds since 1970. -/
  now : Int
  /-- New identifiers; a literal asks for the one numbered by its own place. -/
  newId : Nat → ObjectId

/-! ## Numbers and strings by themselves -/

/-- A number with digits on both sides of a point, or no point, and an optional minus sign. -/
def number? (text : List Char) : Option Json.Number :=
  let (negative, body) := match text with
    | '-' :: r => (true, r)
    | r => (false, r)
  match cut '.' body with
  | (whole, none) =>
    if Decimal.allDigits whole then
      let n : Int := if negative then -(Decimal.value whole : Int) else Decimal.value whole
      if Decimal.minInt64 ≤ n && n ≤ Decimal.maxInt64 then some (.int n)
      else finite (Double.ofDecimal negative (Decimal.value whole) 0)
    else none
  | (whole, some frac) =>
    if Decimal.allDigits whole && Decimal.allDigits frac then
      finite (Double.ofDecimal negative (Decimal.value (whole ++ frac)) (-(frac.length : Int)))
    else none
where
  /-- A double, unless the number was too large for one. -/
  finite (x : Double) : Option Json.Number := if x.isFinite then some (.real x) else none

/-- What stands for an escaped character: the control that a letter names, or a quote or backslash
    for itself.  Other characters are not escaped at all, so their backslash stays. -/
def unescapeChar (c : Char) : List Char :=
  match c with
  | 'n' => ['\n']
  | 't' => ['\t']
  | 'r' => ['\r']
  | '\\' => ['\\']
  | '\'' => ['\'']
  | '"' => ['"']
  | c => ['\\', c]

/-- The text between the quotes `q`, or nothing if one of them stands inside. -/
def unescape? (q : Char) : List Char → Option (List Char)
  | [] => some []
  | ['\\'] => some []
  | '\\' :: c :: r => (unescape? q r).map (unescapeChar c ++ ·)
  | c :: r => if c = q then none else (unescape? q r).map (c :: ·)

/-- The text of a string literal. -/
def dequote? : List Char → Option (List Char)
  | q :: r => if Scan.isQuote q && r.getLast? == some q then unescape? q r.dropLast else none
  | [] => none

/-! ## Strings inside a literal -/

/-- A string literal behind its opening quote `q`, as JSON writes it behind the opening quote, and
    the text behind it.  A string that is not closed is closed at the end. -/
def copyString (q : Char) : List Char → List Char × List Char
  | [] => (['"'], [])
  | '\\' :: c :: r =>
    let (s, rest) := copyString q r
    (if c = '\'' then '\'' :: s else '\\' :: c :: s, rest)
  | c :: r =>
    if c = q then (['"'], r)
    else
      let (s, rest) := copyString q r
      (if c = '"' then '\\' :: '"' :: s else c :: s, rest)

/-! ## Constructor calls -/

/-- The calls that may stand for a value. -/
inductive Constructor where
  | objectId
  | isoDate
  | date
  | numberInt
  | numberLong
deriving DecidableEq, Repr

namespace Constructor

def name : Constructor → String
  | .objectId => "ObjectId"
  | .isoDate => "ISODate"
  | .date => "Date"
  | .numberInt => "NumberInt"
  | .numberLong => "NumberLong"

def all : List Constructor := [.objectId, .isoDate, .date, .numberInt, .numberLong]

/-- The constructor of that name. -/
def ofName? (word : List Char) : Option Constructor :=
  all.find? fun c => c.name.toList == word

/-- Only these two may stand behind `new`. -/
def ofNewName? (word : List Char) : Option Constructor :=
  match ofName? word with
  | some .objectId => some .objectId
  | some .date => some .date
  | _ => none

/-- The value of the call as strict JSON.  `place` numbers a new identifier. -/
def render (ambient : Ambient) (place : Nat) (c : Constructor) (arg : List Char) :
    Except String (List Char) :=
  let wrapped (key : String) (v : List Char) : List Char :=
    '\x7b' :: '"' :: (key.toList ++ '"' :: ':' :: (v ++ ['\x7d']))
  match c with
  | .objectId =>
    if arg.isEmpty then .ok (wrapped "$oid" (Json.stringText (ambient.newId place).toHex))
    else match dequote? arg with
      | some hex => .ok (wrapped "$oid" (Json.stringText (String.ofList hex)))
      | none => .error "ObjectId expects a string"
  | .isoDate | .date =>
    if arg.isEmpty then .ok (wrapped "$date" (Json.intText ambient.now))
    else match dequote? arg with
      | some s => .ok (wrapped "$date" (Json.stringText (String.ofList s)))
      | none =>
        match number? arg with
        | some n => .ok (wrapped "$date" n.text)
        | none => .error "date expects a string or number"
  | .numberInt | .numberLong =>
    match number? ((dequote? arg).getD arg) with
    | some n => .ok n.text
    | none => .error (c.name ++ " expects a number")

end Constructor

/-! ## Words -/

/-- The characters of words: names and dots. -/
def isWordChar (c : Char) : Bool := isNameChar c || c = '.'

/-- The word at the front and the text behind it. -/
def spanWord (s : List Char) : List Char × List Char :=
  (s.takeWhile isWordChar, s.dropWhile isWordChar)

/-- What was written last, blanks apart; `out` has its last character first. -/
def lastSolid? (out : List Char) : Option Char := (trimStart out).head?

/-- Whether a word with `rest` behind it is a key. -/
def isKeyPosition (out rest : List Char) : Bool :=
  (lastSolid? out == some '\x7b' || lastSolid? out == some ',') && (trimStart rest).head? == some ':'

/-- What a word stands for, and the text behind it and its call. -/
inductive WordSense where
  /-- The word itself. -/
  | plain
  /-- The absent value. -/
  | undefined
  /-- A constructor, called in the text that follows. -/
  | call (c : Constructor) (rest : List Char)
  /-- `new` in front of something that cannot be made. -/
  | badNew

/-- What a word stands for as a value. -/
def wordSense (word rest : List Char) : WordSense :=
  if word = "new".toList then
    let after := trimStart rest
    match Constructor.ofNewName? (after.takeWhile isNameChar) with
    | some c => .call c (after.dropWhile isNameChar)
    | none => .badNew
  else if word = "undefined".toList then .undefined
  else match Constructor.ofName? word with
    | some c => .call c rest
    | none => .plain

/-- The strict form of a call whose constructor was read, and the text behind it. -/
def callText (ambient : Ambient) (c : Constructor) (rest : List Char) :
    Except String (List Char × List Char) :=
  match trimStart rest with
  | '(' :: r =>
    match cut ')' r with
    | (_, none) => .error ("unterminated " ++ c.name ++ "(...)")
    | (inner, some behind) =>
      (c.render ambient behind.length (trim inner)).map fun v => (v, behind)
  | _ => .error ("expected `(` after " ++ c.name)

/-! ## The rewriting -/

/-- The text without the comma that was written last, if one was: blanks behind it go with it. -/
def withoutComma (out : List Char) : List Char :=
  match trimStart out with
  | ',' :: r => r
  | _ => out

/-- Rewrites `rest` behind `out`, which has its last character first.  Every turn reads at least
    one character, so the length of the text is fuel enough. -/
def strictFrom (ambient : Ambient) : (fuel : Nat) → (out rest : List Char) →
    Except String (List Char)
  | _, out, [] => .ok out.reverse
  | 0, out, _ => .ok out.reverse
  | fuel + 1, out, c :: r =>
    if Scan.isQuote c then
      let (s, rest) := copyString c r
      strictFrom ambient fuel (s.reverse ++ '"' :: out) rest
    else if c = '\x7d' || c = ']' then strictFrom ambient fuel (c :: withoutComma out) r
    else if isWordChar c then
      let (word, rest) := spanWord (c :: r)
      if isKeyPosition out rest then
        strictFrom ambient fuel ('"' :: (word.reverse ++ '"' :: out)) rest
      else match wordSense word rest with
        | .plain => strictFrom ambient fuel (word.reverse ++ out) rest
        | .undefined => strictFrom ambient fuel ("null".toList.reverse ++ out) rest
        | .badNew => .error "only `new Date` and `new ObjectId` are supported"
        | .call con behindName =>
          match callText ambient con behindName with
          | .error reason => .error reason
          | .ok (v, behind) => strictFrom ambient fuel (v.reverse ++ out) behind
    else strictFrom ambient fuel (c :: out) r

/-- Nothing is left to read, whatever fuel is left. -/
theorem strictFrom_nil (ambient : Ambient) (fuel : Nat) (out : List Char) :
    strictFrom ambient fuel out [] = .ok out.reverse := by
  rw [strictFrom]

/-- The strict form of a literal. -/
def strictText (ambient : Ambient) (text : List Char) : Except ParseError (List Char) :=
  match strictFrom ambient text.length [] text with
  | .ok s => .ok s
  | .error reason => .error (.invalidLiteral (String.ofList text) reason)

/-- The strict form of a literal, on finished text. -/
def quoteLiteral (ambient : Ambient) (text : String) : Except ParseError String :=
  (strictText ambient text.toList).map String.ofList

end Polyshell.Mongo
