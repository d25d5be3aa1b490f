/-
  Dates of the proleptic Gregorian calendar, and instants in milliseconds since 1970.

  The calendar is counted in eras of 400 years, which all have 146097 days; inside an era the years
  begin in March, so that the leap day is the last one.  `dayNumber` and `ofDayNumber` convert
  between a date and its distance from 1970-01-01.

  Three texts of an instant are read or written here:

  * the timestamp of RFC 3339, read with any one-byte separator between date and time, an offset of
    up to 25 hours, and a second 60 only where one can be inserted (`readTimestamp?`);
  * a bare date, which stands for its midnight (`readDate?`);
  * the two printed forms (`timestamp`, `spaced`).
-/
import Polyshell.Decimal.Whole
import Polyshell.Text.Blank

namespace Polyshell

/-- A day of the calendar. -/
structure CalendarDate where
  year : Int
  month : Nat
  day : Nat
deriving DecidableEq, Repr

namespace CalendarDate

def isLeapYear (y : Int) : Bool := y % 4 == 0 && (y % 100 != 0 || y % 400 == 0)

/-- The number of days of a month; junk outside 1 … 12. -/
def monthLength (y : Int) (m : Nat) : Nat :=
  if m = 2 then (if isLeapYear y then 29 else 28)
  else if m = 4 || m = 6 || m = 9 || m = 11 then 30
  else 31

def isValid (d : CalendarDate) : Bool :=
  1 ≤ d.month && d.month ≤ 12 && 1 ≤ d.day && d.day ≤ monthLength d.year d.month

/-- Days since 1970-01-01. -/
def dayNumber (d : CalendarDate) : Int :=
  let y := if d.month ≤ 2 then d.year - 1 else d.year
  let era := Int.fdiv y 400
  let yearOfEra := y - era * 400
  let fromMarch : Int := if d.month ≤ 2 then d.month + 9 else d.month - 3
  let dayOfYear := (153 * fromMarch + 2) / 5 + d.day - 1
  let dayOfEra := yearOfEra * 365 + yearOfEra / 4 - yearOfEra / 100 + dayOfYear
  era * 146097 + dayOfEra - 719468

/-- The date that lies `n` days after 1970-01-01. -/
def ofDayNumber (n : Int) : CalendarDate :=
  let z := n + 719468
  let era := Int.fdiv z 146097
  let dayOfEra := z - era * 146097
  let yearOfEra := (dayOfEra - dayOfEra / 1460 + dayOfEra / 36524 - dayOfEra / 146096) / 365
  let dayOfYear := dayOfEra - (365 * yearOfEra + yearOfEra / 4 - yearOfEra / 100)
  let fromMarch := (5 * dayOfYear + 2) / 153
  let day := (dayOfYear - (153 * fromMarch + 2) / 5 + 1).toNat
  let month := (if fromMarch < 10 then fromMarch + 3 else fromMarch - 9).toNat
  ⟨yearOfEra + era * 400 + (if month ≤ 2 then 1 else 0), month, day⟩

end CalendarDate

namespace Instant

/-! ## Parts -/

def dayMillis : Int := 86400000

/-- The date of an instant, and the milliseconds since its midnight. -/
def split (ms : Int) : CalendarDate × Nat :=
  (CalendarDate.ofDayNumber (Int.fdiv ms dayMillis), (Int.fmod ms dayMillis).toNat)

/-- `n` with zeros in front, up to `width` digits. -/
def padded (width n : Nat) : List Char :=
  let ds := Decimal.digits n
  List.replicate (width - ds.length) '0' ++ ds

/-- The fraction of a second without trailing zeros; nothing for a full second. -/
def fraction (ms : Nat) : List Char :=
  ((padded 3 ms).reverse.dropWhile (· == '0')).reverse

/-- The last instant of the year 9999. -/
def lastTimestamp : Int := 253402300799999

/-! ## Writing -/

/-- The timestamp of RFC 3339 in UTC; it has a fraction only when one is due.  Years from 0 to 9999
    have this form. -/
def timestamp (ms : Int) : String :=
  let (d, t) := split ms
  let f := fraction (t % 1000)
  String.ofList <|
    padded 4 d.year.toNat ++ '-' :: padded 2 d.month ++ '-' :: padded 2 d.day ++ 'T' ::
      padded 2 (t / 3600000) ++ ':' :: padded 2 (t / 60000 % 60) ++ ':' ::
      padded 2 (t / 1000 % 60) ++ (if f.isEmpty then [] else '.' :: f) ++ ['Z']

/-- The first and the last instant that `spaced` writes; others are shown as one of these. -/
def spacedRange : Int × Int := (-31619087596800000 , 31494784780799999)

/-- Date, time and offset with spaces between them, the hour as short as possible.  A year outside
    0 … 9999 carries its sign. -/
def spaced (ms : Int) : String :=
  let (d, t) := split (max spacedRange.1 (min spacedRange.2 ms))
  let f := if spacedRange.2 < ms then "999999999".toList else fraction (t % 1000)
  let year :=
    if d.year < 0 then '-' :: padded 4 d.year.natAbs
    else if 10000 ≤ d.year then '+' :: padded 4 d.year.natAbs
    else padded 4 d.year.natAbs
  String.ofList <|
    year ++ '-' :: padded 2 d.month ++ '-' :: padded 2 d.day ++ ' ' ::
      Decimal.digits (t / 3600000) ++ ':' :: padded 2 (t / 60000 % 60) ++ ':' ::
      padded 2 (t / 1000 % 60) ++ '.' :: (if f.isEmpty then ['0'] else f) ++ " +00:00:00".toList

/-! ## Reading -/

/-- Exactly `n` digits. -/
def exactDigits? (n : Nat) (s : List Char) : Option (Nat × List Char) :=
  if (s.take n).length = n && (s.take n).all Decimal.isDigit then
    some (Decimal.value (s.take n), s.drop n)
  else none

/-- The character `c`. -/
def expect? (c : Char) : List Char → Option (List Char)
  | d :: r => if d = c then some r else none
  | [] => none

/-- The nanoseconds that the digits of a fraction stand for; digits past the ninth count nothing. -/
def nanos (ds : List Char) : Nat :=
  Decimal.value (ds.take 9) * Nat.pow 10 (9 - (ds.take 9).length)

/-- A fraction of a second in nanoseconds, if a point stands there. -/
def readFraction? : List Char → Option (Nat × List Char)
  | '.' :: r =>
    let ds := r.takeWhile Decimal.isDigit
    if ds.isEmpty then none else some (nanos ds, r.dropWhile Decimal.isDigit)
  | s => some (0, s)

/-- An offset from UTC in minutes, up to the end of the text. -/
def readOffset? : List Char → Option Int
  | ['Z'] => some 0
  | ['z'] => some 0
  | c :: r =>
    if c = '+' || c = '-' then do
      let (h, r) ← exactDigits? 2 r
      let r ← expect? ':' r
      let (m, r) ← exactDigits? 2 r
      if r.isEmpty && h ≤ 25 && m ≤ 59 then
        let minutes : Int := h * 60 + m
        some (if c = '-' then -minutes else minutes)
      else none
    else none
  | [] => none

/-- Whether a leap second may stand in place of the last second before `seconds` (since 1970): the
    minute is the last one of a month in UTC. -/
def leapSecondAllowed (seconds : Int) : Bool :=
  let (d, t) := split (seconds * 1000)
  t / 1000 == 86399 && d.day == CalendarDate.monthLength d.year d.month

/-- A timestamp of RFC 3339, in milliseconds; what is finer is cut off toward 1970. -/
def readTimestamp? (s : List Char) : Option Int := do
  let (year, s) ← exactDigits? 4 s
  let s ← expect? '-' s
  let (month, s) ← exactDigits? 2 s
  let s ← expect? '-' s
  let (day, s) ← exactDigits? 2 s
  let s ← match s with
    | c :: r => if c.toNat < 0x80 then some r else none
    | [] => none
  let (hour, s) ← exactDigits? 2 s
  let s ← expect? ':' s
  let (minute, s) ← exactDigits? 2 s
  let s ← expect? ':' s
  let (second, s) ← exactDigits? 2 s
  let (ns, s) ← readFraction? s
  let offset ← readOffset? s
  let date : CalendarDate := ⟨year, month, day⟩
  if date.isValid && hour ≤ 23 && minute ≤ 59 && second ≤ 60 then
    let leap := second == 60
    let seconds : Int :=
      date.dayNumber * 86400 + hour * 3600 + minute * 60 + (if leap then 59 else second : Nat) -
        offset * 60
    let ns : Int := if leap then 999999999 else ns
    if leap && !leapSecondAllowed seconds then none
    else some (Int.tdiv (seconds * 1000000000 + ns) 1000000)
  else none

/-- Up to `most` digits, at least one, behind any blanks. -/
def shortNumber? (most : Nat) (s : List Char) : Option (Nat × List Char) :=
  let s := Text.trimStart s
  let ds := (s.takeWhile Decimal.isDigit).take most
  if ds.isEmpty then none else some (Decimal.value ds, s.drop ds.length)

/-- A year: four digits, or any number of them behind a sign. -/
def readYear? (s : List Char) : Option (Int × List Char) :=
  let s := Text.trimStart s
  let signed (r : List Char) (negative : Bool) : Option (Int × List Char) :=
    let ds := r.takeWhile Decimal.isDigit
    if ds.isEmpty then none
    else
      let n : Int := Decimal.value ds
      some (if negative then -n else n, r.dropWhile Decimal.isDigit)
  match s with
  | '-' :: r => signed r true
  | '+' :: r => signed r false
  | _ => (shortNumber? 4 s).map fun (n, r) => ((n : Int), r)

/-- Year, month and day with hyphens between them: the midnight of that day in UTC. -/
def readDate? (s : List Char) : Option Int := do
  let (year, s) ← readYear? s
  let s ← expect? '-' s
  let (month, s) ← shortNumber? 2 s
  let s ← expect? '-' s
  let (day, s) ← shortNumber? 2 s
  let date : CalendarDate := ⟨year, month, day⟩
  if s.isEmpty && date.isValid && -262143 ≤ year && year ≤ 262142 then
    some (date.dayNumber * dayMillis)
  else none

/-- A timestamp, or else a bare date. -/
def read? (s : List Char) : Option Int := readTimestamp? s <|> readDate? s

example : CalendarDate.ofDayNumber 19675 = ⟨2023, 11, 14⟩ := by decide
example : timestamp 1700000000120 = "2023-11-14T22:13:20.12Z" := by decide +kernel
example : read? "2024-02-29".toList = some 1709164800000 := by decide +kernel
example : read? "1970-01-01 00:00:00.5+01:00".toList = some (-3599500) := by decide +kernel

end Instant
end Polyshell
