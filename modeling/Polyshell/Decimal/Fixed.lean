/-
  Decimal numbers with a fixed point, as relational servers have them.

  A number is a count of units of 10^-places.  Counts have 96 bits and there are at most 28 places; a
  text with more digits behind its point is rounded to what fits, a half away from zero.  Trailing
  zeros count: `1.50` and `1.5` are different numbers with different texts.
-/
import Polyshell.Decimal.Whole

namespace Polyshell.Decimal

/-- A number with a fixed point. -/
structure Fixed where
  negative : Bool
  units : Nat
  places : Nat
deriving DecidableEq, Repr

namespace Fixed

/-- The largest count of units. -/
def maxUnits : Nat := Nat.pow 2 96 - 1

/-- The largest number of places. -/
def maxPlaces : Nat := 28

/-- Takes further places as long as they fit; the first that does not rounds the last one. -/
def extend (units places : Nat) : List Char → Option (Nat × Nat)
  | [] => some (units, places)
  | c :: r =>
    let more := 10 * units + digitValue c
    if places < maxPlaces && more ≤ maxUnits then extend more (places + 1) r
    else if digitValue c < 5 then some (units, places)
    else if units < maxUnits then some (units + 1, places)
    else if 0 < places then some ((units + 1) / 10 + (if 5 ≤ (units + 1) % 10 then 1 else 0), places - 1)
    else none

/-- The number that a text writes: an optional sign, digits, and a point among them. -/
def read? (s : List Char) : Option Fixed :=
  let (negative, body) := match s with
    | '-' :: r => (true, r)
    | '+' :: r => (false, r)
    | r => (false, r)
  let whole := body.takeWhile isDigit
  let fraction? : Option (List Char) := match body.dropWhile isDigit with
    | [] => some []
    | '.' :: r => if r.all isDigit then some r else none
    | _ => none
  fraction?.bind fun fraction =>
    if (whole.isEmpty && fraction.isEmpty) || maxUnits < value whole then none
    else (extend (value whole) 0 fraction).map fun n => ⟨negative && n.1 != 0, n.1, n.2⟩

/-- The text of a number, with all its places. -/
def text (x : Fixed) : String :=
  let ds := digits x.units
  let ds := List.replicate (x.places + 1 - ds.length) '0' ++ ds
  let whole := ds.take (ds.length - x.places)
  let fraction := ds.drop (ds.length - x.places)
  String.ofList <|
    (if x.negative then ['-'] else []) ++ whole ++ (if fraction.isEmpty then [] else '.' :: fraction)

example : (read? "-007.50".toList).map text = some "-7.50" := by decide +kernel
example : (read? "0.00".toList).map text = some "0.00" := by decide +kernel
example : (read? "1.".toList).map text = some "1" ∧ read? ".".toList = none := by decide +kernel

end Fixed
end Polyshell.Decimal
