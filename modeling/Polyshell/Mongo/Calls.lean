/-
  Call chains: `name(…).name(…)`, and the arguments between one pair of parentheses.

  A chain is cut into calls at the parenthesis that closes what was opened; between two calls there
  must be a dot and nothing but blanks.  The scan starts anew behind every call, for nothing is
  open there.  Arguments are cut at the commas that stand outside string literals and brackets.

  Pieces come back without the blanks around them.  All functions have a form on `List Char` that
  does the work and carries no wording of its own for texts that are cut out of the input.
-/
import Polyshell.Mongo.Scan
import Polyshell.Error.Parse

namespace Polyshell.Mongo

open Polyshell.Text

/-- A fault about a piece of the text. -/
def unbalanced (text : List Char) : ParseError := .unbalancedDelimiters (String.ofList text)

/-- Something that is no call. -/
def notACall (text : List Char) : ParseError := .invalidMethodCall (String.ofList text)

/-! ## Chains -/

mutual

/-- Inside a call of the chain `whole`: `seen` is what was read of it, last character first, and
    `opened` says whether a parenthesis was among it. -/
def insideCall (whole : List Char) (s : Scan) (opened : Bool) (seen : List Char) :
    List Char → Except ParseError (List (List Char))
  | [] =>
    if s.settled then
      let rest := trim seen.reverse
      .error (notACall (if rest.isEmpty then whole else rest))
    else .error (unbalanced whole)
  | c :: r =>
    let s' := s.next c
    if s.structural c then
      if s'.depth < 0 then .error (unbalanced whole)
      else if c = ')' && s'.depth == 0 && opened then
        match betweenCalls whole r with
        | .ok calls => .ok (trim (c :: seen).reverse :: calls)
        | .error e => .error e
      else insideCall whole s' (opened || c == '(') (c :: seen) r
    else insideCall whole s' opened (c :: seen) r

/-- Behind a call of the chain `whole`. -/
def betweenCalls (whole : List Char) : List Char → Except ParseError (List (List Char))
  | [] => .ok []
  | c :: r =>
    if isBlank c then betweenCalls whole r
    else if c = '.' then insideCall whole Scan.start false [] r
    else .error (notACall (c :: r))

end

/-- The calls of a chain, as text. -/
def chainCalls (text : List Char) : Except ParseError (List (List Char)) :=
  insideCall text Scan.start false [] text

/-- The calls of a chain, on finished text. -/
def splitChain (text : String) : Except ParseError (List String) :=
  (chainCalls text.toList).map fun calls => calls.map String.ofList

/-! ## One call -/

/-- The characters of names. -/
def isNameChar (c : Char) : Bool := c.isAlphanum || c = '_' || c = '$'

/-- The name of a call and the text between its parentheses: the first opening one, and a closing
    one at the end. -/
def callParts (call : List Char) : Except ParseError (List Char × List Char) :=
  let call := trim call
  match cut '(' call with
  | (_, none) => .error (notACall call)
  | (front, some back) =>
    match dropLast? ')' back with
    | none => .error (notACall call)
    | some inner =>
      let name := trim front
      if !name.isEmpty && name.all isNameChar then .ok (name, inner) else .error (notACall call)

/-- Name and inner text of a call, on finished text. -/
def methodCall (call : String) : Except ParseError (String × String) :=
  (callParts call.toList).map fun p => (String.ofList p.1, String.ofList p.2)

/-! ## Arguments -/

/-- The pieces between separating commas, or nothing if the brackets do not balance.  `seen` is the
    piece read so far, last character first. -/
def argumentPieces? (s : Scan) (seen : List Char) : List Char → Option (List (List Char))
  | [] => if s.settled then some [trim seen.reverse] else none
  | c :: r =>
    let s' := s.next c
    if s.structural c && s'.depth < 0 then none
    else if s.structural c && c = ',' && s'.depth == 0 then
      (argumentPieces? s' [] r).map (trim seen.reverse :: ·)
    else argumentPieces? s' (c :: seen) r

/-- The pieces without the last one, if that is empty: a comma may stand behind the last
    argument. -/
def dropEmptyLast (pieces : List (List Char)) : List (List Char) :=
  match pieces.getLast? with
  | some [] => pieces.dropLast
  | _ => pieces

/-- The arguments, as text.  Blank text holds none, and no argument is empty. -/
def argumentTexts (inner : List Char) : Except ParseError (List (List Char)) :=
  if (trim inner).isEmpty then .ok []
  else match argumentPieces? Scan.start [] inner with
    | none => .error (unbalanced inner)
    | some pieces =>
      let args := dropEmptyLast pieces
      if args.any List.isEmpty then
        .error (.invalidLiteral (String.ofList inner) "empty argument")
      else .ok args

/-- The arguments, on finished text. -/
def splitArguments (inner : String) : Except ParseError (List String) :=
  (argumentTexts inner.toList).map fun args => args.map String.ofList

example : (splitChain "find(')') .limit(5)").toOption = some ["find(')')", "limit(5)"] := by
  decide +kernel
example : (splitArguments "1, [2, 3], ").toOption = some ["1", "[2, 3]"] := by decide +kernel

end Polyshell.Mongo
