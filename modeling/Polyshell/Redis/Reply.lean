/-
  Replies of a key-value server, and how they are printed.

  A scalar prints as itself.  A list prints one numbered item a line; a list inside an item starts
  its numbers anew and is not indented.  A map prints as JSON: its keys are the printed forms of
  the keys, so two keys that print alike become one member, and its values keep their structure as
  long as JSON has it.  Bytes that are no text are shown with U+FFFD in their place.
-/
import Polyshell.Json.Printer
import Polyshell.Text.Utf8

namespace Polyshell.Redis

/-- A reply. -/
inductive Reply where
  | nil
  | okay
  | int (i : Int)
  | bool (b : Bool)
  | double (x : Double)
  | simple (s : String)
  | bulk (bytes : List UInt8)
  | array (items : List Reply)
  | set (items : List Reply)
  | map (pairs : List (Reply × Reply))
  /-- A reply with remarks about it. -/
  | attribute (data : Reply) (remarks : List (Reply × Reply))
  | verbatim (format text : String)
  /-- Something the server sent unasked. -/
  | push (kind : String) (items : List Reply)
  /-- An error in place of a reply: its code word and what is said about it. -/
  | failure (code : String) (detail : Option String)
  | bigNumber (i : Int)
deriving Inhabited, Repr

namespace Reply

/-- Items with their numbers, one a line. -/
def numbered (items : List String) : String :=
  if items.isEmpty then "(empty array)"
  else "\n".intercalate (items.zipIdx.map fun p => toString (p.2 + 1) ++ ") " ++ p.1)

/-- A double inside JSON, or its name where JSON has no number for it. -/
def doubleJson (x : Double) : Json := if x.isFinite then .num (.real x) else .str x.plain

/-- An error in place of a reply. -/
def failureText (code : String) (detail : Option String) : String :=
  match detail with
  | some d => "Server error: `" ++ code ++ ": " ++ d ++ "`"
  | none => "Server error: `" ++ code ++ "`"

mutual

/-- The printed form. -/
def text : Reply → String
  | .nil => "(nil)"
  | .okay => "OK"
  | .int i => toString i
  | .bool b => if b then "1" else "0"
  | .double x => x.plain
  | .simple s => s
  | .bulk bytes => String.ofList (Text.Utf8.decodeLossy bytes)
  | .verbatim _ s => s
  | .array items => numbered (itemTexts items)
  | .set items => numbered (itemTexts items)
  | .push _ items => numbered (itemTexts items)
  | .map pairs => (Json.obj (Members.ofList (pairMembers pairs))).pretty
  | .attribute data _ => text data
  | .failure code detail => failureText code detail
  | .bigNumber i => "big-number(" ++ toString i ++ ")"

def itemTexts : List Reply → List String
  | [] => []
  | v :: r => text v :: itemTexts r

/-- The JSON of a reply inside a map. -/
def toJson : Reply → Json
  | .nil => .null
  | .bool b => .bool b
  | .int i => .num (.int i)
  | .double x => doubleJson x
  | .array items => .arr (itemJsons items)
  | .set items => .arr (itemJsons items)
  | .map pairs => .obj (Members.ofList (pairMembers pairs))
  | .okay => .str "OK"
  | .simple s => .str s
  | .bulk bytes => .str (String.ofList (Text.Utf8.decodeLossy bytes))
  | .verbatim _ s => .str s
  | .push _ items => .str (numbered (itemTexts items))
  | .attribute data _ => .str (text data)
  | .failure code detail => .str (failureText code detail)
  | .bigNumber i => .str ("big-number(" ++ toString i ++ ")")

def itemJsons : List Reply → List Json
  | [] => []
  | v :: r => toJson v :: itemJsons r

/-- The pairs of a map as members, in order and with repetitions. -/
def pairMembers : List (Reply × Reply) → List (String × Json)
  | [] => []
  | (k, v) :: r => (text k, toJson v) :: pairMembers r

end

/-- The first error in a reply, looking into lists and maps. -/
def firstFailure? : Reply → Option (String × Option String)
  | .failure code detail => some (code, detail)
  | .array items => inItems items
  | .set items => inItems items
  | .push _ items => inItems items
  | .map pairs => inPairs pairs
  | .attribute data remarks =>
    match firstFailure? data with
    | some f => some f
    | none => inPairs remarks
  | _ => none
where
  /-- The first error in a list. -/
  inItems : List Reply → Option (String × Option String)
    | [] => none
    | v :: r =>
      match firstFailure? v with
      | some f => some f
      | none => inItems r
  /-- The first error in the keys and values of a map. -/
  inPairs : List (Reply × Reply) → Option (String × Option String)
    | [] => none
    | (k, v) :: r =>
      match firstFailure? k with
      | some f => some f
      | none =>
        match firstFailure? v with
        | some f => some f
        | none => inPairs r

end Reply
end Polyshell.Redis
