/-
  The texts of doubles.

  Three formats are in use, all over the shortest digits (`Polyshell.Double.shortest`).

  * `plain` — what the shell shows for a number by itself: no exponent however large or small the
    number, no point after a whole number, `inf` and `NaN` by name.
  * `inJson` — a number inside JSON text: a point and a digit after a whole number, an exponent
    with its sign from `1e+16` up and below `0.00001`.
  * `spelled` — the canonical spelling of Extended JSON: `plain`, with `.0` after a whole number.
-/
import Polyshell.Double.Shortest

namespace Polyshell.Double

/-- The digits with the point put in by position, zeros filled in on either side. -/
def positional (ds : List Char) (point : Int) : List Char :=
  if point ≤ 0 then '0' :: '.' :: (List.replicate (-point).toNat '0' ++ ds)
  else if (ds.length : Int) ≤ point then ds ++ List.replicate (point.toNat - ds.length) '0'
  else ds.take point.toNat ++ '.' :: ds.drop point.toNat

/-- One digit, the rest after a point, and the exponent with a sign. -/
def scientific (ds : List Char) (point : Int) : List Char :=
  let mantissa := match ds with
    | d :: r@(_ :: _) => d :: '.' :: r
    | _ => ds
  let e := point - 1
  mantissa ++ 'e' :: (if e < 0 then '-' else '+') :: Decimal.digits e.natAbs

/-- The sign of `x` in front of a text. -/
def signed (x : Double) (s : List Char) : String :=
  String.ofList (if x.isNegative then '-' :: s else s)

/-- Whether the shortest digits of a finite `x` end before the point. -/
def isWhole (x : Double) : Bool := x.toInt?.isSome

/-- A number by itself. -/
def plain (x : Double) : String :=
  if x.isNaN then "NaN"
  else if x.isInfinite then x.signed "inf".toList
  else if x.isZero then x.signed ['0']
  else
    let (ds, point) := (x.shortest .up).point
    x.signed (positional ds point)

/-- A finite number inside JSON text; what is not finite has no form there and is shown by
    `null`. -/
def inJson (x : Double) : String :=
  if !x.isFinite then "null"
  else if x.isZero then x.signed ['0', '.', '0']
  else
    let (ds, point) := (x.shortest .toEven).point
    if point ≤ -5 || 16 < point then x.signed (scientific ds point)
    else if (ds.length : Int) ≤ point then x.signed (positional ds point ++ ['.', '0'])
    else x.signed (positional ds point)

/-- The canonical spelling. -/
def spelled (x : Double) : String :=
  if x.isNaN then "NaN"
  else if x.isInfinite then x.signed "Infinity".toList
  else if x.isWhole then x.plain ++ ".0"
  else x.plain

/-! ## Reading -/

/-- Digits with an optional point among them (at least one digit), an optional exponent. -/
def readUnsigned? (s : List Char) : Option (Nat × Int) :=
  let whole := s.takeWhile Decimal.isDigit
  let afterWhole := s.dropWhile Decimal.isDigit
  let (frac, rest) := match afterWhole with
    | '.' :: r => (r.takeWhile Decimal.isDigit, r.dropWhile Decimal.isDigit)
    | r => ([], r)
  if whole.isEmpty && frac.isEmpty then none
  else
    let n := Decimal.value (whole ++ frac)
    let shift : Int := -(frac.length : Int)
    match rest with
    | [] => some (n, shift)
    | c :: r =>
      if c = 'e' || c = 'E' then
        let (negative, ds) := match r with
          | '-' :: ds => (true, ds)
          | '+' :: ds => (false, ds)
          | ds => (false, ds)
        if Decimal.allDigits ds then
          let e : Int := Decimal.value ds
          some (n, shift + (if negative then -e else e))
        else none
      else none

/-- A decimal number with an optional sign, or one of the names of the values that are not finite,
    in any case of letters. -/
def read? (s : List Char) : Option Double :=
  let (negative, body) := match s with
    | '-' :: r => (true, r)
    | '+' :: r => (false, r)
    | r => (false, r)
  let name := String.ofList (body.map Char.toLower)
  if name = "nan" then some (if negative then nan.negate else nan)
  else if name = "inf" || name = "infinity" then some (infinity negative)
  else (readUnsigned? body).map fun (n, e) => ofDecimal negative n e

example : (ofRatio false 1 10).plain = "0.1" := by decide +kernel
example : (ofInt 1).plain = "1" ∧ (ofInt 1).inJson = "1.0" := by decide +kernel
example : (ofDecimal false 1 16).inJson = "1e+16" := by decide +kernel
example : (ofDecimal false 1 (-5)).inJson = "0.00001" := by decide +kernel
example : (Double.mk 1).inJson = "5e-324" := by decide +kernel

end Polyshell.Double
