/-
  The shortest decimal that reads back as a given double.

  The reals that round to a finite `m · 2^q` form an interval around it: it reaches half a last
  place to either side (a quarter below a power of two, where the doubles get denser), and holds
  its ends exactly when `m` is even.  `shortest` looks at the grids of 1, 2, … 17 digits in turn.
  If any point of a grid lies in the interval, then one of the two neighbours of the value on that
  grid does, so two candidates per grid are enough; the first grid with a hit gives the fewest
  digits, and of two hits the nearer wins.  Which of two equally near ones wins is a choice of the
  caller.

  All comparisons are between natural numbers: the interval and the grid are brought to one
  denominator.
-/
import Polyshell.Double

namespace Polyshell.Double

/-- Which of two decimals at the same distance is taken. -/
inductive Tie where
  | toEven
  | up
deriving DecidableEq, Repr

/-- The number `digits · 10^exponent`. -/
structure Scientific where
  digits : Nat
  exponent : Int
deriving DecidableEq, Repr, Inhabited

/-- A positive value between two bounds, over one denominator; the bounds belong to the interval
    when `closed`. -/
structure Interval where
  low : Nat
  mid : Nat
  high : Nat
  den : Nat
  closed : Bool

/-- The reals that round to the absolute value of a finite `x`, which is not zero. -/
def roundingInterval (x : Double) : Interval :=
  let (m, q) := x.magnitude
  let scale := Nat.pow 2 q.toNat
  let below := if m = Nat.pow 2 52 && -1074 < q then 1 else 2
  { low := (4 * m - below) * scale
    mid := 4 * m * scale
    high := (4 * m + 2) * scale
    den := 4 * Nat.pow 2 (-q).toNat
    closed := m % 2 == 0 }

namespace Interval

/-- Whether `n / den` lies in the interval, where all bounds are already over that denominator. -/
def holds (i : Interval) (n : Nat) : Bool :=
  if i.closed then i.low ≤ n && n ≤ i.high else i.low < n && n < i.high

/-- The exponent of ten of the leading digit: `10^p ≤ mid / den < 10^(p+1)`. -/
def leadingExponent (i : Interval) : Int :=
  if i.den ≤ i.mid then (Decimal.digits (i.mid / i.den)).length - 1
  else -((Decimal.digits ((i.den + i.mid - 1) / i.mid - 1)).length : Int)

/-- The interval and the step of a grid, over one denominator: the step is `10^k`. -/
def onGrid (i : Interval) (k : Int) : Interval × Nat :=
  let up := Nat.pow 10 (-k).toNat
  ({ i with low := i.low * up, mid := i.mid * up, high := i.high * up }, i.den * Nat.pow 10 k.toNat)

/-- The grid point to take at step `10^k`, if one of the two next to the middle lies inside. -/
def nearest? (i : Interval) (tie : Tie) (k : Int) : Option Nat :=
  let (j, step) := i.onGrid k
  let floor := j.mid / step
  let above := (floor + 1) * step - j.mid
  let under := j.mid - floor * step
  match j.holds (floor * step), j.holds ((floor + 1) * step) with
  | false, false => none
  | true, false => some floor
  | false, true => some (floor + 1)
  | true, true =>
    if under < above then some floor
    else if above < under then some (floor + 1)
    else match tie with
      | .up => some (floor + 1)
      | .toEven => some (floor + floor % 2)

end Interval

/-- The grids of `n`, `n + 1`, … digits, as far as the fuel goes. -/
def shortestFrom (i : Interval) (tie : Tie) (p : Int) : (fuel n : Nat) → Scientific
  | 0, n =>
    let k := p - n + 1
    ⟨(i.onGrid k).1.mid / (i.onGrid k).2, k⟩
  | fuel + 1, n =>
    let k := p - n + 1
    match i.nearest? tie k with
    | some d => ⟨d, k⟩
    | none => shortestFrom i tie p fuel (n + 1)

/-- The fewest digits that read back as the absolute value of a finite `x`. -/
def shortest (tie : Tie) (x : Double) : Scientific :=
  if x.isZero then ⟨0, 0⟩
  else
    let i := x.roundingInterval
    shortestFrom i tie i.leadingExponent 17 1

/-- The digits without trailing zeros, and where the point stands: before the first digit at `0`,
    after the `n`-th at `n`. -/
def Scientific.point (s : Scientific) : List Char × Int :=
  let ds := Decimal.digits s.digits
  (((ds.reverse.dropWhile (· == '0')).reverse), ds.length + s.exponent)

end Polyshell.Double
