/-
  Extended JSON: BSON values written as JSON.

  Values that JSON has no form for are wrapped in an object whose key starts with `$`.  There are
  two spellings.  The canonical one wraps every number by its width, so nothing is lost.  The
  relaxed one, which the shell shows, leaves numbers bare and writes a date as a timestamp when its
  year lies between 1970 and 9999.  A subnormal double is bare in both, and what is neither a
  number nor a date is written alike.

  `ofExtended?` reads either spelling.  A key that marks a wrapper commits the object to it: what
  does not have the shape of that wrapper is refused.
-/
import Polyshell.Bson
import Polyshell.Calendar
import Polyshell.Double.Text

namespace Polyshell.Bson

/-! ## Wrappers -/

/-- An object with one member. -/
def wrap (key : String) (v : Json) : Json := .obj [(key, v)]

/-- A value under a key, as text. -/
def wrapText (key text : String) : Json := wrap key (.str text)

/-- The wrapper of an identifier. -/
def oidJson (id : ObjectId) : Json := wrapText "$oid" id.toHex

/-- A date as a count of milliseconds. -/
def millisJson (ms : Int) : Json := wrap "$date" (wrapText "$numberLong" (toString ms))

/-- A double without a digit form, by name. -/
def specialJson (x : Double) : Json :=
  wrapText "$numberDouble" <|
    if x.isNaN then (if x.isNegative then "-NaN" else "NaN") else x.spelled

/-- The two hexadecimal digits of a subtype. -/
def subtypeText (n : Nat) : String := String.ofList (ObjectId.hexPadded 2 n)

/-- The letters of regular expression options in order. -/
def sortedOptions (s : String) : String :=
  String.ofList (s.toList.mergeSort fun a b => a ≤ b)

/-! ## Relaxed spelling -/

/-- A double in the relaxed spelling. -/
def doubleRelaxed (x : Double) : Json :=
  if x.isFinite then .num (.real x) else specialJson x

/-- A date in the relaxed spelling. -/
def dateRelaxed (ms : Int) : Json :=
  if 0 ≤ ms && ms ≤ Instant.lastTimestamp then wrapText "$date" (Instant.timestamp ms)
  else millisJson ms

mutual

/-- The relaxed spelling. -/
def relaxed : Bson → Json
  | .null => .null
  | .bool b => .bool b
  | .int32 i => .num (.int i)
  | .int64 i => .num (.int i)
  | .double x => doubleRelaxed x
  | .str s => .str s
  | .objectId id => oidJson id
  | .date ms => dateRelaxed ms
  | .arr items => .arr (relaxedItems items)
  | .doc members => .obj (relaxedMembers members)
  | .binary t b => wrap "$binary" (.obj [("base64", .str b), ("subType", .str (subtypeText t))])
  | .decimal d => wrapText "$numberDecimal" d.text
  | .regex p o =>
    wrap "$regularExpression" (.obj [("pattern", .str p), ("options", .str (sortedOptions o))])
  | .code c => wrapText "$code" c
  | .codeWithScope c scope => .obj [("$code", .str c), ("$scope", .obj (relaxedMembers scope))]
  | .timestamp t i => wrap "$timestamp" (.obj [("t", .ofNat t), ("i", .ofNat i)])
  | .symbol s => wrapText "$symbol" s
  | .undefined => wrap "$undefined" (.bool true)
  | .minKey => wrap "$minKey" (.ofNat 1)
  | .maxKey => wrap "$maxKey" (.ofNat 1)
  | .dbPointer ns id => wrap "$dbPointer" (.obj [("$ref", .str ns), ("$id", oidJson id)])

def relaxedItems : List Bson → List Json
  | [] => []
  | v :: r => relaxed v :: relaxedItems r

def relaxedMembers : List (String × Bson) → List (String × Json)
  | [] => []
  | (k, v) :: r => (k, relaxed v) :: relaxedMembers r

end

/-! ## Canonical spelling -/

/-- A double in the canonical spelling. -/
def doubleCanonical (x : Double) : Json :=
  if x.isFinite && !x.isSubnormal then wrapText "$numberDouble" x.spelled else doubleRelaxed x

mutual

/-- The canonical spelling. -/
def canonical : Bson → Json
  | .int32 i => wrapText "$numberInt" (toString i)
  | .int64 i => wrapText "$numberLong" (toString i)
  | .double x => doubleCanonical x
  | .date ms => millisJson ms
  | .arr items => .arr (canonicalItems items)
  | .doc members => .obj (canonicalMembers members)
  | .codeWithScope c scope => .obj [("$code", .str c), ("$scope", .obj (canonicalMembers scope))]
  | v => relaxed v

def canonicalItems : List Bson → List Json
  | [] => []
  | v :: r => canonical v :: canonicalItems r

def canonicalMembers : List (String × Bson) → List (String × Json)
  | [] => []
  | (k, v) :: r => (k, canonical v) :: canonicalMembers r

end

/-! ## Members by name -/

/-- The member `key` of an object that has no other. -/
def only? (key : String) (members : List (String × Json)) : Option Json :=
  match members with
  | [(k, v)] => if k = key then some v else none
  | _ => none

/-- The text under `key`, in an object that has no other member. -/
def onlyText? (key : String) (members : List (String × Json)) : Option String :=
  (only? key members).bind Json.toStr?

/-! ## Reading -/

def oidOf? (v : Json) : Option ObjectId :=
  match v with
  | .obj members => do
    let hex ← onlyText? "$oid" members
    (ObjectId.ofHex hex).toOption
  | _ => none

/-- The date inside a wrapper: a timestamp, a wrapped count, or a bare one. -/
def dateOf? : Json → Option Int
  | .str s => Instant.readTimestamp? s.toList
  | .num n => n.toInt64?
  | .obj members => do
    let digits ← onlyText? "$numberLong" members
    Decimal.readInt64? digits.toList
  | _ => none

def byteOf? (s : String) : Option Nat :=
  match Text.Utf8.bytesOfHex? s.toList with
  | some [b] => some b.toNat
  | _ => none

def word32Of? : Json → Option Nat
  | .num (.int i) => if 0 ≤ i && i < 4294967296 then some i.toNat else none
  | _ => none

/-- The value of a wrapper whose content is flat, by its key. -/
def flatWrapper? (members : List (String × Json)) : Option (Option Bson) :=
  let has key := (Members.find? key members).isSome
  if has "$oid" then some ((oidOf? (.obj members)).map .objectId)
  else if has "$symbol" then some ((onlyText? "$symbol" members).map .symbol)
  else if has "$numberInt" then
    some do
      let s ← onlyText? "$numberInt" members
      let i ← Decimal.read? Decimal.minInt32 Decimal.maxInt32 s.toList
      return .int32 i
  else if has "$numberLong" then
    some do
      let s ← onlyText? "$numberLong" members
      let i ← Decimal.readInt64? s.toList
      return .int64 i
  else if has "$numberDouble" then
    some do
      let s ← onlyText? "$numberDouble" members
      let x ← Double.read? s.toList
      return .double x
  else if has "$numberDecimal" then
    some do
      let s ← onlyText? "$numberDecimal" members
      let d ← Decimal128.read? s.toList
      return .decimal d
  else if has "$binary" then
    some do
      let .obj inner ← only? "$binary" members | none
      let b ← (Members.find? "base64" inner).bind Json.toStr?
      let t ← (Members.find? "subType" inner).bind Json.toStr?
      let n ← byteOf? t
      if inner.length = 2 then return .binary n b else none
  else if has "$timestamp" then
    some do
      let .obj inner ← only? "$timestamp" members | none
      let t ← (Members.find? "t" inner).bind word32Of?
      let i ← (Members.find? "i" inner).bind word32Of?
      if inner.length = 2 then return .timestamp t i else none
  else if has "$regularExpression" then
    some do
      let .obj inner ← only? "$regularExpression" members | none
      let p ← (Members.find? "pattern" inner).bind Json.toStr?
      let o ← (Members.find? "options" inner).bind Json.toStr?
      if inner.length = 2 then return .regex p (sortedOptions o) else none
  else if has "$dbPointer" then
    some do
      let .obj inner ← only? "$dbPointer" members | none
      let ns ← (Members.find? "$ref" inner).bind Json.toStr?
      let id ← (Members.find? "$id" inner).bind oidOf?
      if inner.length = 2 then return .dbPointer ns id else none
  else if has "$date" then
    some do
      let v ← only? "$date" members
      let ms ← dateOf? v
      return .date ms
  else if has "$minKey" then some ((only? "$minKey" members).map fun _ => .minKey)
  else if has "$maxKey" then some ((only? "$maxKey" members).map fun _ => .maxKey)
  else if has "$undefined" then some ((only? "$undefined" members).map fun _ => .undefined)
  else none

mutual

/-- The BSON value that Extended JSON writes. -/
def ofExtended? : Json → Option Bson
  | .null => some .null
  | .bool b => some (.bool b)
  | .num n => some (ofNumber n)
  | .str s => some (.str s)
  | .arr items => (ofExtendedItems? items).map .arr
  | .obj [("$code", .str c)] => some (.code c)
  | .obj [("$code", .str c), ("$scope", .obj scope)] =>
    (ofExtendedMembers? scope).map fun s => .codeWithScope c s
  | .obj members =>
    match flatWrapper? members with
    | some v => v
    | none => (ofExtendedMembers? members).map .doc

def ofExtendedItems? : List Json → Option (List Bson)
  | [] => some []
  | v :: r => do
    let b ← ofExtended? v
    let bs ← ofExtendedItems? r
    return b :: bs

def ofExtendedMembers? : List (String × Json) → Option (List (String × Bson))
  | [] => some []
  | (k, v) :: r => do
    let b ← ofExtended? v
    let bs ← ofExtendedMembers? r
    return (k, b) :: bs

end

end Polyshell.Bson
