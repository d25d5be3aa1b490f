/-
  Scanning shell expressions: what is inside a string literal, and how deep brackets nest.

  A command is scanned once, from left to right.  The state is the quote that is open, whether the
  last character was a backslash inside it, and the balance of brackets outside string literals.
  All three kinds of brackets share the one balance; that a closing bracket is of the kind that was
  opened is a matter for the reader of the text between them.

  `normalize` is the first use: blanks outside string literals become single spaces, and everything
  else stays as it is.
-/
import Polyshell.Text.Blank

namespace Polyshell.Mongo

open Polyshell.Text

/-- The state between two characters. -/
structure Scan where
  quote : Option Char
  escaped : Bool
  depth : Int
deriving DecidableEq, Repr

namespace Scan

/-- Before the first character. -/
def start : Scan := ⟨none, false, 0⟩

/-- A quote opens a string literal. -/
def isQuote (c : Char) : Bool := c = '"' || c = '\''

def isOpening (c : Char) : Bool := c = '(' || c = '\x7b' || c = '['

def isClosing (c : Char) : Bool := c = ')' || c = '\x7d' || c = ']'

/-- The state behind `c`. -/
def next (s : Scan) (c : Char) : Scan :=
  match s.quote with
  | some q =>
    if s.escaped then { s with escaped := false }
    else if c = '\\' then { s with escaped := true }
    else if c = q then { s with quote := none }
    else s
  | none =>
    if isQuote c then { s with quote := some c }
    else if isOpening c then { s with depth := s.depth + 1 }
    else if isClosing c then { s with depth := s.depth - 1 }
    else s

/-- Whether `c` stands outside every string literal and opens none. -/
def structural (s : Scan) (c : Char) : Bool := s.quote.isNone && !isQuote c

/-- Whether a string literal is open. -/
def inString (s : Scan) : Bool := s.quote.isSome

/-- Nothing is open. -/
def settled (s : Scan) : Bool := !s.inString && s.depth == 0

/-- The state behind a text. -/
def run (s : Scan) (text : List Char) : Scan := text.foldl next s

@[simp] theorem run_nil (s : Scan) : s.run [] = s := rfl

@[simp] theorem run_cons (s : Scan) (c : Char) (r : List Char) :
    s.run (c :: r) = (s.next c).run r := rfl

theorem run_append (s : Scan) (a b : List Char) : s.run (a ++ b) = (s.run a).run b := by
  simp [run, List.foldl_append]

/-- Inside a string literal the balance does not move. -/
theorem next_depth_of_inString (s : Scan) (c : Char) (h : s.inString = true) :
    (s.next c).depth = s.depth := by
  unfold inString at h
  unfold next
  cases hq : s.quote with
  | none => simp [hq] at h
  | some q => simp only; split <;> (try split) <;> (try split) <;> rfl

end Scan

/-! ## Normal form of a command -/

/-- Blanks outside string literals collapsed to one space, and dropped at the end.  `pending` says
    that such blanks were just passed over. -/
def collapse : (s : Scan) → (pending : Bool) → List Char → List Char
  | _, _, [] => []
  | s, pending, c :: r =>
    if s.structural c && isBlank c then collapse (s.next c) true r
    else if pending then ' ' :: c :: collapse (s.next c) false r
    else c :: collapse (s.next c) false r

/-- The command without the blanks around it and one final semicolon. -/
def stripped (command : List Char) : List Char :=
  let t := trim command
  trimEnd ((dropLast? ';' t).getD t)

/-- The normal form. -/
def normalized (command : List Char) : List Char := collapse Scan.start false (stripped command)

/-- The normal form of a command text. -/
def normalize (command : String) : String := String.ofList (normalized command.toList)

example : normalize "  db.c . find( 'a  b' ) ; " = "db.c . find( 'a  b' )" := by decide +kernel

end Polyshell.Mongo
