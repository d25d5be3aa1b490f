/-
  Unquoted TOML values: numbers, truth values, dates and times.

  An unquoted value is one run of characters, and its form alone tells what it is.  The digits of
  a number may be grouped by single underscores, each between two digits (`ungroup?`).  A decimal
  number has no superfluous zero in front; numbers in the bases 16, 8 and 2 carry a mark and no
  sign.
-/
import Polyshell.Toml
import Polyshell.Double.Text
import Polyshell.Calendar
import Polyshell.Text.Utf8

namespace Polyshell.Toml

open Polyshell.Text.Utf8 (hexValue?)

/-! ## Numbers -/

/-- The digits of a run that may be grouped by underscores; `p` tells the digits. -/
def ungroup? (p : Char → Bool) : List Char → Option (List Char)
  | [] => none
  | [c] => if p c then some [c] else none
  | c :: '_' :: r => if p c then (ungroup? p r).map (c :: ·) else none
  | c :: r => if p c then (ungroup? p r).map (c :: ·) else none

/-- The number that digits denote in a base. -/
def valueIn (base : Nat) (ds : List Char) : Nat :=
  ds.foldl (fun n c => base * n + (hexValue? c).getD 0) 0

/-- Digits of one base, below it and grouped. -/
def inBase? (base : Nat) (s : List Char) : Option Nat :=
  (ungroup? (fun c => (hexValue? c).any (· < base)) s).map (valueIn base)

/-- A sign, and what it stands before. -/
def splitSign : List Char → Bool × List Char
  | '-' :: r => (true, r)
  | '+' :: r => (false, r)
  | s => (false, s)

/-- The digits of a decimal number without a superfluous zero. -/
def decimalDigits? (s : List Char) : Option (List Char) :=
  match ungroup? Decimal.isDigit s with
  | some ['0'] => some ['0']
  | some ('0' :: _) => none
  | other => other

/-- The whole numbers that can be kept. -/
def leastInteger : Int := -(Nat.pow 2 127)
def greatestInteger : Int := Nat.pow 2 128 - 1

/-- A whole number in any of its forms. -/
def integer? (s : List Char) : Option Int := do
  let n : Int ← match s with
    | '0' :: 'x' :: r => (inBase? 16 r).map Int.ofNat
    | '0' :: 'o' :: r => (inBase? 8 r).map Int.ofNat
    | '0' :: 'b' :: r => (inBase? 2 r).map Int.ofNat
    | _ =>
      let (negative, body) := splitSign s
      (decimalDigits? body).map fun ds =>
        if negative then -(Decimal.value ds : Int) else (Decimal.value ds : Int)
  if leastInteger ≤ n && n ≤ greatestInteger then some n else none

/-- Whether `c` can stand in a run of grouped digits. -/
def isGroupable (c : Char) : Bool := Decimal.isDigit c || c = '_'

/-- The exponent of a float, behind its mark. -/
def exponent? (s : List Char) : Option Int :=
  let (negative, body) := splitSign s
  (ungroup? Decimal.isDigit body).map fun ds =>
    if negative then -(Decimal.value ds : Int) else (Decimal.value ds : Int)

/-- A number with a fraction, an exponent, or both; or the name of a number that is not finite. -/
def float? (s : List Char) : Option Double :=
  let (negative, body) := splitSign s
  if body = "inf".toList then some (Double.infinity negative)
  else if body = "nan".toList then some (if negative then Double.nan.negate else Double.nan)
  else do
    let whole ← decimalDigits? (body.takeWhile isGroupable)
    let (frac, rest) ← match body.dropWhile isGroupable with
      | '.' :: r => (ungroup? Decimal.isDigit (r.takeWhile isGroupable)).map fun ds =>
          (ds, r.dropWhile isGroupable)
      | [] => none
      | r => some ([], r)
    let e ← match rest with
      | [] => some 0
      | c :: r => if c = 'e' || c = 'E' then exponent? r else none
    return Double.ofDecimal negative (Decimal.value (whole ++ frac)) (e - frac.length)

/-! ## Dates and times -/

/-- Two digits of a number up to `hi`. -/
def twoDigits? (hi : Nat) (s : List Char) : Option (List Char) := do
  let (n, r) ← Instant.exactDigits? 2 s
  if n ≤ hi then some r else none

/-- What is left behind a date. -/
def afterDate? (s : List Char) : Option (List Char) := do
  let (y, r) ← Instant.exactDigits? 4 s
  let r ← match r with | '-' :: r => some r | _ => none
  let (m, r) ← Instant.exactDigits? 2 r
  let r ← match r with | '-' :: r => some r | _ => none
  let (d, r) ← Instant.exactDigits? 2 r
  if CalendarDate.isValid ⟨y, m, d⟩ then some r else none

/-- What is left behind a fraction of a second, if there is one. -/
def afterFraction? : List Char → Option (List Char)
  | '.' :: r => if (r.takeWhile Decimal.isDigit).isEmpty then none else some (r.dropWhile Decimal.isDigit)
  | s => some s

/-- What is left behind a time of day, whose seconds may be missing. -/
def afterTime? (s : List Char) : Option (List Char) := do
  let r ← twoDigits? 23 s
  let r ← match r with | ':' :: r => twoDigits? 59 r | _ => none
  match r with
  | ':' :: r => afterFraction? (← twoDigits? 60 r)
  | r => some r

/-- Whether `s` is an offset from universal time, or nothing. -/
def isOffset (s : List Char) : Bool :=
  match s with
  | [] => true
  | [c] => c = 'Z' || c = 'z'
  | c :: r =>
    (c = '+' || c = '-') &&
      (match twoDigits? 23 r with
        | some (':' :: r) => twoDigits? 59 r == some []
        | _ => false)

/-- Whether `c` can stand between a date and a time. -/
def isSeparator (c : Char) : Bool := c = 'T' || c = 't' || c = ' '

/-- Whether `s` is a date, a time, or a date and a time with or without an offset. -/
def isMoment (s : List Char) : Bool :=
  match afterDate? s with
  | some [] => true
  | some (c :: r) => isSeparator c && (afterTime? r).any isOffset
  | none => afterTime? s == some []

/-! ## All of them -/

/-- The value of an unquoted run of characters. -/
def ofRun? (s : List Char) : Option Toml :=
  if s = "true".toList then some (.boolean true)
  else if s = "false".toList then some (.boolean false)
  else match integer? s with
    | some n => some (.integer n)
    | none => match float? s with
      | some x => some (.float x)
      | none => if isMoment s then some (.moment (String.ofList s)) else none

example : integer? "1_000".toList = some 1000 ∧ integer? "1__0".toList = none := by decide +kernel
example : integer? "+7".toList = some 7 ∧ integer? "007".toList = none := by decide +kernel
example : integer? "0xfF".toList = some 255 ∧ integer? "+0x1".toList = none := by decide +kernel
example : isMoment "1979-05-27 07:32:00.5-07:00".toList = true := by decide +kernel
example : isMoment "1979-02-29".toList = false := by decide +kernel

end Polyshell.Toml
