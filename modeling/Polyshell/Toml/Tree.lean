/-
  Building a TOML table from its statements.

  A document is a list of statements: headers that open a table, headers that add an element to an
  array of tables, and entries.  What a statement may still add to a table depends on how the table
  came to be, so the tree that is being built remembers that (`Origin`):

  * an `implied` table was only passed through by the path of a header, and may still get a header
    of its own;
  * a `headed` table had its header: it gets no second one, and no dotted key goes into it;
  * a `dotted` table was made by the dotted key of an entry: other such keys may add to it, a header
    may not open it;
  * a value that was written out (an array or a table in braces) is closed.

  The crux is `edit`, which follows a path and makes what is missing; every statement is one edit
  of the root.
-/
import Polyshell.Toml

namespace Polyshell.Toml

/-! ## Trees -/

/-- How a table came to be. -/
inductive Origin where
  | implied
  | headed
  | dotted
deriving DecidableEq, Repr

/-- A table or a value that is being built. -/
inductive Tree where
  | value (v : Toml)
  | table (origin : Origin) (members : List (String × Tree))
  /-- An array of tables; only its last element can still change. -/
  | series (earlier : List Tree) (last : Tree)

/-- One key of a path, and whether an entry's dotted key goes through it (or a header). -/
structure Step where
  key : String
  byDot : Bool
deriving DecidableEq, Repr

namespace Tree

/-- The member under a key. -/
def member? (ms : List (String × Tree)) (key : String) : Option Tree :=
  (ms.find? fun m => m.1 == key).map (·.2)

/-- The members with the one under `key` put in place, at the end if it is new. -/
def put (ms : List (String × Tree)) (key : String) (t : Tree) : List (String × Tree) :=
  if ms.any (fun m => m.1 == key) then ms.map fun m => if m.1 == key then (m.1, t) else m
  else ms ++ [(key, t)]

/-- Changes what lies at the end of a path.  Tables that are missing are made on the way; a path
    through an array of tables goes into its last element, but only for a header. -/
def edit (change : Tree → Option Tree) : List Step → Tree → Option Tree
  | [], t => change t
  | s :: path, .table o ms =>
    match member? ms s.key with
    | none => do
      let made ← edit change path (.table (if s.byDot then .dotted else .implied) [])
      return .table o (put ms s.key made)
    | some (.table o' ms') =>
      if s.byDot && o' == .headed then none
      else do return .table o (put ms s.key (← edit change path (.table o' ms')))
    | some (.series earlier last) =>
      if s.byDot then none
      else do return .table o (put ms s.key (.series earlier (← edit change path last)))
    | some (.value _) => none
  | _ :: _, _ => none

/-- Opens the table under a key by its header. -/
def openTable (key : String) : Tree → Option Tree
  | .table o ms =>
    match member? ms key with
    | none => some (.table o (put ms key (.table .headed [])))
    | some (.table .implied inner) => some (.table o (put ms key (.table .headed inner)))
    | some _ => none
  | _ => none

/-- Adds an element to the array of tables under a key. -/
def openElement (key : String) : Tree → Option Tree
  | .table o ms =>
    match member? ms key with
    | none => some (.table o (put ms key (.series [] (.table .headed []))))
    | some (.series earlier last) =>
      some (.table o (put ms key (.series (earlier ++ [last]) (.table .headed []))))
    | some _ => none
  | _ => none

/-- Gives a new key its value.  A dotted key may end only in a table that such keys made. -/
def addEntry (dotted : Bool) (key : String) (v : Toml) : Tree → Option Tree
  | .table o ms =>
    if (dotted && o ≠ .dotted) || (member? ms key).isSome then none
    else some (.table o (put ms key (.value v)))
  | _ => none

mutual

/-- The value that was built. -/
def toToml : Tree → Toml
  | .value v => v
  | .table _ ms => .table (membersToToml ms)
  | .series earlier last => .array (itemsToToml earlier ++ [toToml last])

/-- The members that were built. -/
def membersToToml : List (String × Tree) → Members
  | [] => []
  | (k, t) :: ms => (k, toToml t) :: membersToToml ms

/-- The elements that were built. -/
def itemsToToml : List Tree → List Toml
  | [] => []
  | t :: ts => toToml t :: itemsToToml ts

end

/-- A document without statements. -/
def empty : Tree := .table .headed []

end Tree

/-! ## Statements -/

/-- A key: the last of its parts, and the parts before it. -/
structure Key where
  before : List String
  last : String
deriving DecidableEq, Repr

/-- All parts of a key. -/
def Key.parts (k : Key) : List String := k.before ++ [k.last]

/-- A statement of a document. -/
inductive Statement where
  /-- A header that opens a table. -/
  | header (key : Key)
  /-- A header that adds an element to an array of tables. -/
  | element (key : Key)
  | entry (key : Key) (value : Toml)

/-- A document in the middle of its statements: the tree so far, and where entries go. -/
structure Draft where
  root : Tree
  inside : List String

def Draft.start : Draft := ⟨.empty, []⟩

/-- Steps of a header through `parts`. -/
def headerSteps (parts : List String) : List Step := parts.map fun k => ⟨k, false⟩

/-- Steps of a dotted key through `parts`. -/
def dottedSteps (parts : List String) : List Step := parts.map fun k => ⟨k, true⟩

/-- The draft after one more statement; nothing when it contradicts an earlier one. -/
def Draft.add (d : Draft) : Statement → Option Draft
  | .header k => do
    let root ← d.root.edit (Tree.openTable k.last) (headerSteps k.before)
    return ⟨root, k.parts⟩
  | .element k => do
    let root ← d.root.edit (Tree.openElement k.last) (headerSteps k.before)
    return ⟨root, k.parts⟩
  | .entry k v => do
    let path := headerSteps d.inside ++ dottedSteps k.before
    let root ← d.root.edit (Tree.addEntry (!k.before.isEmpty) k.last v) path
    return ⟨root, d.inside⟩

/-- The table of a document. -/
def Draft.members (d : Draft) : Members :=
  match d.root.toToml with
  | .table ms => ms
  | _ => []

end Polyshell.Toml
