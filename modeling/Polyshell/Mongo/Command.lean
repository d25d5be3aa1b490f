/-
  Commands of the document shell.

  A command is one of

      use <database>
      show <what>
      db.<collection>.<operation>(<arguments>).<method>(<arguments>)…
      db.<operation>(<arguments>)…

  and `db.getCollection("<collection>").…` names a collection that the third form cannot.  The
  command is normalised first; faults quote it in that form.

  Names of databases are checked here, for `use` is carried out without asking the server.
-/
import Polyshell.Mongo.Argument

namespace Polyshell.Mongo

open Polyshell.Text

/-- A call with its arguments read. -/
structure Call where
  method : String
  args : List Argument
deriving Inhabited, Repr

/-- A read command.  Commands that concern no collection have an empty one. -/
structure Command where
  collection : String
  operation : String
  args : List Argument
  chain : List Call
deriving Inhabited, Repr

namespace Command

/-- Whether the command is about a collection. -/
def onCollection (c : Command) : Bool := c.collection != ""

/-- A command of the shell itself, with its one word. -/
def ofWord (operation word : String) : Command := ⟨"", operation, [.str word], []⟩

/-! ## The forms -/

/-- What `show` can list. -/
def showTargets : List String := ["dbs", "databases", "collections", "users", "roles"]

/-- The text behind a leading word. -/
def afterKeyword? (keyword : String) (command : List Char) : Option (List Char) :=
  match dropLeading? keyword.toList command with
  | some [] => some []
  | some (' ' :: r) => some (trim r)
  | _ => none

/-- The characters that the name of a database must not have. -/
def forbiddenInDatabase : List Char := "/\\. \"$*<>:|?".toList

/-- A usable name of a database: not empty, at most 64 bytes, no forbidden character. -/
def isDatabaseName (name : List Char) : Bool :=
  !name.isEmpty && Text.Utf8.byteLength name ≤ 64 && !name.any (forbiddenInDatabase.contains ·)

/-- `use <name>`. -/
def ofUse (name : List Char) : Except ParseError Command :=
  if name.isEmpty then .error (.invalidArgument "use" "database name is required")
  else if isDatabaseName name then .ok (ofWord "use" (String.ofList name))
  else .error (.invalidArgument "use" ("invalid database name '" ++ String.ofList name ++ "'"))

/-- `show <target>`. -/
def ofShow (target command : List Char) : Except ParseError Command :=
  if showTargets.contains (String.ofList target) then .ok (ofWord "show" (String.ofList target))
  else .error (.unsupportedCommand (String.ofList command))

/-- The arguments of a call. -/
def readArguments (ambient : Ambient) : List (List Char) → Except ParseError (List Argument)
  | [] => .ok []
  | t :: r =>
    match Argument.ofText ambient t with
    | .error e => .error e
    | .ok a => (readArguments ambient r).map (a :: ·)

/-- A call. -/
def readCall (ambient : Ambient) (call : List Char) : Except ParseError Call := do
  let (name, inner) ← callParts call
  let texts ← argumentTexts inner
  let args ← readArguments ambient texts
  return ⟨String.ofList name, args⟩

/-- The calls of a chain. -/
def readCalls (ambient : Ambient) : List (List Char) → Except ParseError (List Call)
  | [] => .ok []
  | t :: r =>
    match readCall ambient t with
    | .error e => .error e
    | .ok c => (readCalls ambient r).map (c :: ·)

/-- The characters of collection names. -/
def isCollectionChar (c : Char) : Bool := c.isAlphanum || c = '_' || c = '-' || c = '$'

/-- Cuts the collection off the text behind `db.`: it ends at the first dot, unless a parenthesis
    comes before.  Without a dot there is no collection; without either there is no command. -/
def collectionParts? (rest : List Char) : Option (Option (List Char) × List Char) :=
  match cut '.' rest with
  | (front, some back) =>
    if front.contains '(' then some (none, rest) else some (some (trim front), back)
  | (_, none) => if rest.contains '(' then some (none, rest) else none

/-- The collection that a call of `getCollection` names. -/
def collectionArgument (c : Call) : Except ParseError String :=
  match c.args with
  | .str name :: _ =>
    if name.isEmpty then
      .error (.invalidArgument "getCollection" "collection name must be a non-empty string")
    else .ok name
  | _ => .error (.invalidArgument "getCollection" "collection name must be a non-empty string")

/-- The command made of the calls behind `db.` or behind a collection. -/
def ofCalls (command chainText : List Char) (collection : List Char) :
    List Call → Except ParseError Command
  | [] => .error (notACall chainText)
  | primary :: others =>
    if collection.isEmpty && primary.method = "getCollection" then
      match collectionArgument primary, others with
      | .error e, _ => .error e
      | .ok _, [] => .error (notACall command)
      | .ok name, second :: rest => .ok ⟨name, second.method, second.args, rest⟩
    else .ok ⟨String.ofList collection, primary.method, primary.args, others⟩

/-- `db.` and what follows it. -/
def ofExpression (ambient : Ambient) (rest command : List Char) : Except ParseError Command :=
  match collectionParts? rest with
  | none => .error (.unsupportedCommand (String.ofList command))
  | some (named, chainText) =>
    let collection := named.getD []
    if named.isSome && !(!collection.isEmpty && collection.all isCollectionChar) then
      .error (.unsupportedCommand (String.ofList command))
    else do
      let texts ← chainCalls chainText
      let calls ← readCalls ambient texts
      ofCalls command chainText collection calls

/-- The command that a normalised text writes. -/
def ofNormalized (ambient : Ambient) (command : List Char) : Except ParseError Command :=
  if command.isEmpty then .error .emptyCommand
  else match afterKeyword? "use" command with
    | some rest => ofUse rest
    | none =>
      match afterKeyword? "show" command with
      | some rest => ofShow rest command
      | none =>
        match dropLeading? "db.".toList command with
        | some rest => ofExpression ambient rest command
        | none => .error (.unsupportedCommand (String.ofList command))

/-- The command that a text writes. -/
def parse (ambient : Ambient) (text : String) : Except ParseError Command :=
  ofNormalized ambient (normalized text.toList)

end Command
end Polyshell.Mongo
