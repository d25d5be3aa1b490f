/-
  Floating-point numbers of 64 bits, by exact arithmetic.

  A `Double` is its bit pattern; two doubles are equal when their patterns are.  A finite double
  denotes `m · 2^q` with `m < 2^53` and `q ≥ -1074` (`magnitude?`).  Every operation here is of one
  form: compute the exact quotient of two natural numbers, then round it once.  The rounding is
  `ofRatio`, and it is the only place where precision is lost: ties go to the even neighbour, and
  what exceeds the largest finite double becomes infinite.

  Multiplication, division, conversion of whole numbers and reading of decimals are all instances
  of `ofRatio`.
-/
import Polyshell.Decimal.Whole

namespace Polyshell

/-- A binary floating-point number of 64 bits. -/
structure Double where
  bits : UInt64
deriving DecidableEq, Repr, Inhabited

namespace Double

/-! ## Parts -/

/-- The sign bit, set also on a negative zero. -/
def isNegative (x : Double) : Bool := Nat.pow 2 63 ≤ x.bits.toNat

/-- The eleven exponent bits. -/
def exponentBits (x : Double) : Nat := x.bits.toNat / Nat.pow 2 52 % Nat.pow 2 11

/-- The fifty-two fraction bits. -/
def fractionBits (x : Double) : Nat := x.bits.toNat % Nat.pow 2 52

/-- Neither infinite nor a NaN. -/
def isFinite (x : Double) : Bool := x.exponentBits != 2047

def isNaN (x : Double) : Bool := x.exponentBits == 2047 && x.fractionBits != 0

def isInfinite (x : Double) : Bool := x.exponentBits == 2047 && x.fractionBits == 0

/-- Zero of either sign. -/
def isZero (x : Double) : Bool := x.exponentBits == 0 && x.fractionBits == 0

/-- Too small for a full significand, and not zero. -/
def isSubnormal (x : Double) : Bool := x.exponentBits == 0 && x.fractionBits != 0

/-- `(m, q)` such that the absolute value of a finite `x` is `m · 2^q`. -/
def magnitude (x : Double) : Nat × Int :=
  if x.exponentBits = 0 then (x.fractionBits, -1074)
  else (x.fractionBits + Nat.pow 2 52, x.exponentBits - 1075)

/-- The absolute value of a finite `x` as an exact quotient. -/
def ratio (x : Double) : Nat × Nat :=
  let (m, q) := x.magnitude
  (m * Nat.pow 2 q.toNat, Nat.pow 2 (-q).toNat)

/-! ## Constants and signs -/

def ofSignedBits (negative : Bool) (n : Nat) : Double :=
  ⟨UInt64.ofNat (if negative then n + Nat.pow 2 63 else n)⟩

def zero (negative : Bool) : Double := ofSignedBits negative 0

def infinity (negative : Bool) : Double := ofSignedBits negative (2047 * Nat.pow 2 52)

/-- The quiet NaN with an empty payload. -/
def nan : Double := ofSignedBits false (2047 * Nat.pow 2 52 + Nat.pow 2 51)

/-- The number with its sign changed. -/
def negate (x : Double) : Double := ofSignedBits (!x.isNegative) (x.bits.toNat % Nat.pow 2 63)

/-! ## Rounding -/

/-- The quotient rounded to the nearest whole number, a tie to the even one. -/
def roundDiv (num den : Nat) : Nat :=
  let q := num / den
  let r := num % den
  if 2 * r < den then q else if den < 2 * r then q + 1 else q + q % 2

/-- The exponent of the last place: `num / den` has its significand below `2^53` at this scale, and
    no scale is finer than that of the subnormal numbers. -/
def lastPlace (num den : Nat) : Int :=
  let q := max ((Nat.log2 num : Int) - Nat.log2 den - 53) (-1074)
  if num * Nat.pow 2 (-q).toNat / (den * Nat.pow 2 q.toNat) < Nat.pow 2 53 then q else q + 1

/-- The double nearest to the quotient, with the given sign.  A significand that rounds up to
    `2^53` carries into the exponent by itself, since the two stand next to each other. -/
def ofRatio (negative : Bool) (num den : Nat) : Double :=
  if num = 0 then zero negative
  else
    let q := lastPlace num den
    let m := roundDiv (num * Nat.pow 2 (-q).toNat) (den * Nat.pow 2 q.toNat)
    let n := (q + 1074).toNat * Nat.pow 2 52 + m
    if 2047 * Nat.pow 2 52 ≤ n then infinity negative else ofSignedBits negative n

/-! ## Arithmetic -/

/-- The nearest double to a whole number. -/
def ofInt (i : Int) : Double := ofRatio (i < 0) i.natAbs 1

/-- The product of finite numbers. -/
def mul (x y : Double) : Double :=
  let (a, b) := x.ratio
  let (c, d) := y.ratio
  ofRatio (x.isNegative != y.isNegative) (a * c) (b * d)

/-- The quotient of finite numbers, the second not zero. -/
def div (x y : Double) : Double :=
  let (a, b) := x.ratio
  let (c, d) := y.ratio
  ofRatio (x.isNegative != y.isNegative) (a * d) (b * c)

/-- The nearest double to `n · 10^e`.  Exponents that are out of every reach are decided by the
    number of digits alone, so that no power of an unbounded exponent is computed. -/
def ofDecimal (negative : Bool) (n : Nat) (e : Int) : Double :=
  if n = 0 then zero negative
  else
    let top := e + (Decimal.digits n).length
    if 311 < top then infinity negative
    else if top < -330 then zero negative
    else ofRatio negative (n * Nat.pow 10 e.toNat) (Nat.pow 10 (-e).toNat)

/-! ## Whole numbers -/

/-- The whole number that a finite `x` equals, if it is one. -/
def toInt? (x : Double) : Option Int :=
  if x.isFinite then
    let (num, den) := x.ratio
    if num % den = 0 then
      some (if x.isNegative then -((num / den : Nat) : Int) else ((num / den : Nat) : Int))
    else none
  else none

/-- The number cut off at its point and held inside `lo … hi`; a NaN counts as zero. -/
def clampToInt (lo hi : Int) (x : Double) : Int :=
  if x.isNaN then 0
  else if x.isFinite then
    let (num, den) := x.ratio
    let n : Int := ((num / den : Nat) : Int)
    max lo (min hi (if x.isNegative then -n else n))
  else if x.isNegative then lo else hi

example : ofInt 1 = ⟨0x3FF0000000000000⟩ := by decide
example : ofRatio false 1 10 = ⟨0x3FB999999999999A⟩ := by decide
example : ofDecimal false 5 (-324) = ⟨1⟩ := by decide +kernel
example : ofInt 9007199254740993 = ofInt 9007199254740992 := by decide

end Double
end Polyshell
