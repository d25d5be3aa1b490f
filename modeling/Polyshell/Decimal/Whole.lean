/-
  Whole numbers written with decimal digits.

  `digits` writes a natural number with no leading zero; `value` reads any run of digits, leading
  zeros included.  A written whole number with a sign is read by `read?`, which is given the range
  that its reader admits: there are readers for counts, ports and database numbers (no minus sign,
  a plus sign allowed) and for signed words of 64 bits, and all refuse a number out of range rather
  than wrap it.
-/

namespace Polyshell.Decimal

/-- The decimal digits of `n`, most significant first; at least one. -/
def digits (n : Nat) : List Char := Nat.toDigits 10 n

/-- The ten digits. -/
def isDigit (c : Char) : Bool := '0' ≤ c && c ≤ '9'

/-- What a digit is worth; junk on other characters, which no caller passes. -/
def digitValue (c : Char) : Nat := c.toNat - 48

/-- The number that a run of digits denotes, continuing from `acc`. -/
def valueFrom (acc : Nat) (s : List Char) : Nat :=
  s.foldl (fun n c => 10 * n + digitValue c) acc

/-- The number that a run of digits denotes. -/
def value (s : List Char) : Nat := valueFrom 0 s

/-- Whether `s` is a run of digits, with at least one. -/
def allDigits (s : List Char) : Bool := !s.isEmpty && s.all isDigit

theorem valueFrom_append (acc : Nat) (s t : List Char) :
    valueFrom acc (s ++ t) = valueFrom (valueFrom acc s) t := by
  simp [valueFrom, List.foldl_append]

/-- The number written by `s` with an optional sign; a minus sign only where the range goes below
    zero.  Nothing when `s` is no such text or the number is out of range. -/
def read? (lo hi : Int) (s : List Char) : Option Int :=
  let (negative, body) :=
    match s with
    | '-' :: r => if lo < 0 then (true, r) else (false, s)
    | '+' :: r => (false, r)
    | _ => (false, s)
  if allDigits body then
    let n : Int := if negative then -(value body : Int) else value body
    if lo ≤ n && n ≤ hi then some n else none
  else none

/-- Bounds of signed words of 32 and 64 bits. -/
def minInt32 : Int := -2147483648
def maxInt32 : Int := 2147483647
def minInt64 : Int := -9223372036854775808
def maxInt64 : Int := 9223372036854775807
/-- The largest unsigned word of 64 bits. -/
def maxWord64 : Nat := 18446744073709551615

/-- A signed word of 64 bits. -/
def readInt64? (s : List Char) : Option Int := read? minInt64 maxInt64 s

/-- An unsigned number up to `hi`. -/
def readNat? (hi : Nat) (s : List Char) : Option Nat := (read? 0 hi s).map Int.toNat

example : readInt64? "-9223372036854775808".toList = some (-9223372036854775808) := by decide
example : readInt64? "9223372036854775808".toList = none := by decide
example : readNat? 65535 "-1".toList = none ∧ readNat? 65535 "+80".toList = some 80 := by decide

end Polyshell.Decimal
