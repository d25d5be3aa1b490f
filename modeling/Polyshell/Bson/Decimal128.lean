/-
  Decimal numbers of 128 bits: a coefficient of at most 34 digits and an exponent of ten between
  -6176 and 6111.

  A text is taken only if it denotes its number exactly: digits that do not fit must be zeros, and
  a coefficient may be widened with zeros to bring a large exponent into range.  The printed form
  is positional as long as the exponent is not positive and the leading digit stands no further
  than six places behind the point; otherwise it has one digit in front of the point and an
  exponent with its sign.
-/
import Polyshell.Decimal.Whole

namespace Polyshell

/-- A decimal number, or one of the values that are none. -/
inductive Decimal128 where
  | finite (negative : Bool) (coefficient : Nat) (exponent : Int)
  | infinity (negative : Bool)
  | nan (negative signalling : Bool)
deriving DecidableEq, Repr

namespace Decimal128

def maxDigits : Nat := 34
def minExponent : Int := -6176
def maxExponent : Int := 6111

/-- The first `n` digits, if all others are zeros. -/
def cutExact? (n : Nat) (ds : List Char) : Option (List Char) :=
  if (ds.drop n).all (· == '0') then some (ds.take n) else none

/-- The digits without leading zeros; one zero stays. -/
def stripZeros (ds : List Char) : List Char :=
  match ds.dropWhile (· == '0') with
  | [] => ['0']
  | r => r

/-- Digits and exponent brought inside the limits. -/
def fit? (ds : List Char) (e : Int) : Option (List Char × Int) := do
  let (ds, e) ←
    if maxDigits < ds.length then
      (cutExact? maxDigits ds).map fun cut => (cut, e + (ds.length - maxDigits : Nat))
    else some (ds, e)
  let zero := ds == ['0']
  if e < minExponent then
    if zero then return (ds, minExponent)
    let delta := (minExponent - e).toNat
    if ds.length < delta then none
    else
      let cut ← cutExact? (ds.length - delta) ds
      return (cut, minExponent)
  else if maxExponent < e then
    if zero then return (ds, maxExponent)
    let delta := (e - maxExponent).toNat
    if maxDigits < ds.length + delta then none
    else return (ds ++ List.replicate delta '0', maxExponent)
  else return (ds, e)

/-- The number that a text denotes. -/
def read? (s : List Char) : Option Decimal128 :=
  let (negative, body) := match s with
    | '-' :: r => (true, r)
    | '+' :: r => (false, r)
    | r => (false, r)
  let lower := body.map Char.toLower
  let name := String.ofList lower
  if name = "nan" then some (.nan negative false)
  else if name = "snan" then some (.nan negative true)
  else if name = "inf" || name = "infinity" then some (.infinity negative)
  else do
    let mantissa := lower.takeWhile (· != 'e')
    let e ← match lower.dropWhile (· != 'e') with
      | [] => some 0
      | _ :: r => Decimal.read? (-32768) 32767 r
    let whole := mantissa.takeWhile (· != '.')
    let frac := (mantissa.dropWhile (· != '.')).drop 1
    let ds := whole ++ frac
    if ds.all Decimal.isDigit then
      let (ds, e) ← fit? (stripZeros ds) (e - (frac.length : Nat))
      return .finite negative (Decimal.value ds) e
    else none

/-- The printed form. -/
def text : Decimal128 → String
  | .nan negative signalling =>
    (if negative then "-" else "") ++ (if signalling then "s" else "") ++ "NaN"
  | .infinity negative => (if negative then "-" else "") ++ "Infinity"
  | .finite negative coefficient e =>
    let ds := Decimal.digits coefficient
    let leading := e + ds.length - 1
    let body :=
      if e ≤ 0 && -6 ≤ leading then
        let places := (-e).toNat
        if places = 0 then ds
        else if ds.length ≤ places then
          '0' :: '.' :: (List.replicate (places - ds.length) '0' ++ ds)
        else ds.take (ds.length - places) ++ '.' :: ds.drop (ds.length - places)
      else
        ds.take 1 ++ (if ds.length = 1 then [] else '.' :: ds.drop 1) ++
          'E' :: ((if 0 < leading then ['+'] else if leading < 0 then ['-'] else []) ++
            Decimal.digits leading.natAbs)
    String.ofList (if negative then '-' :: body else body)

example : (read? "1.50".toList).map text = some "1.50" := by decide +kernel
example : (read? "1E+3".toList).map text = some "1E+3" := by decide +kernel

end Decimal128
end Polyshell
