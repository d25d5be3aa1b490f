/-
  Dates and timestamps are read back from what is written of them.

  1. **The calendar** — `ofDayNumber n` is a date of the calendar (`isValid_ofDayNumber`), and
     `dayNumber` gives `n` back (`dayNumber_ofDayNumber`).  The one fact behind both is that the
     estimate of the year inside an era is exact: the day lies behind the first day of that year and
     in front of the first day of the next (`yearOfEra_spec`).

  2. **The text** — numbers padded to their width read back (`exactDigits?_padded`), and so does a
     fraction that has lost its trailing zeros (`nanos_fraction`).

  Together they say that the timestamp of an instant between 1970 and the end of 9999 reads as that
  instant (`readTimestamp?_timestamp`).
-/
import Polyshell.Calendar
import Polyshell.Proofs.Decimal.Digits

namespace Polyshell

namespace CalendarDate

/-! ## Years of an era -/

/-- The year that a day of an era lies in, as `ofDayNumber` estimates it. -/
def yearOfEra (d : Int) : Int := (d - d / 1460 + d / 36524 - d / 146096) / 365

/-- The days of an era in front of a year. -/
def yearStart (y : Int) : Int := 365 * y + y / 4 - y / 100

/-- What the leap years add from one year of an era to the next: a day, unless the next year is no
    leap year. -/
theorem next_year {y : Int} (h0 : 0 ≤ y) (h1 : y ≤ 399) :
    (y + 1) / 4 = y / 4 ∧ (y + 1) / 100 = y / 100 ∧ (y + 1) / 400 = 0 ∨
    (y + 1) / 4 = y / 4 + 1 ∧ (y + 1) / 100 = y / 100 ∧ (y + 1) / 400 = 0 ∨
    (y + 1) / 4 = y / 4 + 1 ∧ (y + 1) / 100 = y / 100 + 1 ∧ (y + 1) / 400 = 0 ∨ y = 399 := by
  omega

/-- A year with a day more than 365 is a leap year. -/
theorem leap_of_longer {y : Int} (h0 : 0 ≤ y) (h1 : y ≤ 399)
    (h : yearStart y + 365 < yearStart (y + 1) + (y + 1) / 400) :
    (y + 1) % 4 = 0 ∧ ((y + 1) % 100 ≠ 0 ∨ (y + 1) % 400 = 0) := by
  simp only [yearStart] at h
  rcases next_year h0 h1 with hn | hn | hn | hn <;> omega

section Era

variable {d : Int} (h0 : 0 ≤ d) (h1 : d ≤ 146096)
include h0 h1

theorem yearOfEra_bounds : 0 ≤ yearOfEra d ∧ yearOfEra d ≤ 399 := by
  rw [yearOfEra]
  omega

/-- The centuries that have passed are those of the year, but for the last day of the era. -/
theorem century_of_yearOfEra :
    yearOfEra d / 100 = d / 36524 ∨ d = 146096 ∧ yearOfEra d = 399 := by
  rw [yearOfEra]
  omega

/-- The estimate takes off a leap day for every four years that have passed, and one more only in a
    fourth year. -/
theorem leap_of_yearOfEra : d / 1460 = yearOfEra d / 4 ∨
    d / 1460 = yearOfEra d / 4 + 1 ∧ (yearOfEra d + 1) / 4 = yearOfEra d / 4 + 1 := by
  rw [yearOfEra]
  omega

/-- The estimate is exact: the day is not in front of its year, nor behind it. -/
theorem yearOfEra_spec : yearStart (yearOfEra d) ≤ d ∧
    d < yearStart (yearOfEra d + 1) + (yearOfEra d + 1) / 400 := by
  have hy := yearOfEra_bounds h0 h1
  have hcentury := century_of_yearOfEra h0 h1
  have hleap := leap_of_yearOfEra h0 h1
  rw [yearStart, yearStart]
  generalize hyear : yearOfEra d = y at *
  rw [yearOfEra] at hyear
  rcases hcentury with hc | ⟨rfl, rfl⟩
  · constructor
    · omega
    · rcases next_year hy.1 hy.2 with hn | hn | hn | rfl <;> omega
  · -- the last day of the era lies behind its four centuries
    decide

end Era

/-! ## Months of a year that begins in March -/

/-- The length of the month that begins `m` months after the first of March; February has its leap
    day. -/
def lengthFromMarch (m : Int) : Int :=
  if m = 11 then 29 else if m = 1 ∨ m = 3 ∨ m = 6 ∨ m = 8 then 30 else 31

theorem month_spec {doy : Int} (h0 : 0 ≤ doy) (h1 : doy ≤ 365) {m : Int}
    (hm : m = (5 * doy + 2) / 153) : 0 ≤ m ∧ m ≤ 11 ∧ 1 ≤ doy - (153 * m + 2) / 5 + 1 ∧
      doy - (153 * m + 2) / 5 + 1 ≤ lengthFromMarch m ∧
      (m = 11 → doy - (153 * m + 2) / 5 + 1 = 29 → doy = 365) := by
  have hcases : m = 0 ∨ m = 1 ∨ m = 2 ∨ m = 3 ∨ m = 4 ∨ m = 5 ∨ m = 6 ∨ m = 7 ∨ m = 8 ∨ m = 9 ∨
      m = 10 ∨ m = 11 := by omega
  rw [lengthFromMarch]
  rcases hcases with rfl | rfl | rfl | rfl | rfl | rfl | rfl | rfl | rfl | rfl | rfl | rfl <;> omega

/-! ## There and back -/

/-- What the parts of `ofDayNumber n` are: an era, a year in it, a month from March on, a day. -/
theorem ofDayNumber_spec (n : Int) : ∃ era y m day : Int,
    ofDayNumber n = ⟨y + era * 400 + (if m < 10 then 0 else 1),
      (if m < 10 then m + 3 else m - 9).toNat, day.toNat⟩ ∧
    n = era * 146097 + yearStart y + ((153 * m + 2) / 5 + day - 1) - 719468 ∧
    0 ≤ y ∧ y ≤ 399 ∧ 0 ≤ m ∧ m ≤ 11 ∧ 1 ≤ day ∧ day ≤ lengthFromMarch m ∧
    (m = 11 → day = 29 → (y + 1) % 4 = 0 ∧ ((y + 1) % 100 ≠ 0 ∨ (y + 1) % 400 = 0)) := by
  generalize hera : Int.fdiv (n + 719468) 146097 = era
  rw [Int.fdiv_eq_ediv_of_nonneg _ (by decide)] at hera
  generalize hd : n + 719468 - era * 146097 = d
  obtain ⟨h0, h1⟩ : 0 ≤ d ∧ d ≤ 146096 := by omega
  have hy := yearOfEra_bounds h0 h1
  obtain ⟨hstart, hend⟩ := yearOfEra_spec h0 h1
  -- from here on only the bounds of the year matter, not how it was estimated
  generalize hyear : yearOfEra d = y at *
  generalize hdoy : d - yearStart y = doy
  obtain ⟨hdoy0, hdoy1⟩ : 0 ≤ doy ∧ doy ≤ 365 := by
    simp only [yearStart] at hstart hend hdoy
    omega
  generalize hm : (5 * doy + 2) / 153 = m
  obtain ⟨hm0, hm1, hday0, hday1, hleap⟩ := month_spec hdoy0 hdoy1 hm.symm
  refine ⟨era, y, m, doy - (153 * m + 2) / 5 + 1, ?_, ?_, hy.1, hy.2, hm0, hm1, hday0, hday1, ?_⟩
  · rw [ofDayNumber]
    simp only [Int.fdiv_eq_ediv_of_nonneg _ (show (0 : Int) ≤ 146097 by decide), hera, hd]
    rw [show (d - d / 1460 + d / 36524 - d / 146096) / 365 = y from hyear,
      show d - (365 * y + y / 4 - y / 100) = doy from hdoy, hm]
    congr 1
    by_cases hlt : m < 10
    · rw [if_pos hlt, if_pos hlt, if_neg (by omega)]
    · rw [if_neg hlt, if_neg hlt, if_pos (by omega)]
  · omega
  · intro hlast hday
    have hfull := hleap hlast hday
    exact leap_of_longer hy.1 hy.2 (by omega)

theorem dayNumber_ofDayNumber (n : Int) : (ofDayNumber n).dayNumber = n := by
  obtain ⟨era, y, m, day, hdate, hn, hy0, hy1, hm0, hm1, hday0, -, -⟩ := ofDayNumber_spec n
  rw [yearStart] at hn
  have hera : ∀ year, year = y + era * 400 → Int.fdiv year 400 = era := by
    rintro year rfl
    rw [Int.fdiv_eq_ediv_of_nonneg _ (by decide)]
    omega
  rw [hdate, dayNumber]
  simp only
  by_cases hlt : m < 10
  · rw [if_pos hlt, if_pos hlt, if_neg (by omega), if_neg (by omega), hera _ (by omega)]
    omega
  · rw [if_neg hlt, if_neg hlt, if_pos (by omega), if_pos (by omega), hera _ (by omega)]
    omega

theorem isValid_ofDayNumber (n : Int) : (ofDayNumber n).isValid = true := by
  obtain ⟨era, y, m, day, hdate, -, hy0, hy1, hm0, hm1, hday0, hday1, hleap⟩ := ofDayNumber_spec n
  rw [hdate, isValid]
  simp only [monthLength, isLeapYear, Bool.and_eq_true, decide_eq_true_eq, Bool.or_eq_true,
    beq_iff_eq, bne_iff_ne]
  rw [lengthFromMarch] at hday1
  by_cases hlast : m = 11
  · -- only the length of February depends on the year
    subst hlast
    simp at hday1 hleap ⊢
    split <;> omega
  · have hcases : m = 0 ∨ m = 1 ∨ m = 2 ∨ m = 3 ∨ m = 4 ∨ m = 5 ∨ m = 6 ∨ m = 7 ∨ m = 8 ∨ m = 9 ∨
        m = 10 := by omega
    clear hleap
    rcases hcases with rfl | rfl | rfl | rfl | rfl | rfl | rfl | rfl | rfl | rfl | rfl <;>
      simp at hday1 ⊢ <;> omega

/-- The years from 1970 to 9999 are those of the days from 0 to 2932896. -/
theorem year_ofDayNumber {n : Int} (h0 : 0 ≤ n) (h1 : n ≤ 2932896) :
    0 ≤ (ofDayNumber n).year ∧ (ofDayNumber n).year ≤ 9999 := by
  obtain ⟨era, y, m, day, hdate, hn, hy0, hy1, hm0, hm1, hday0, hday1, -⟩ := ofDayNumber_spec n
  have hlength : lengthFromMarch m ≤ 31 := by
    rw [lengthFromMarch]
    split
    · omega
    · split <;> omega
  rw [hdate]
  rw [yearStart] at hn
  simp only
  split <;> omega

end CalendarDate

namespace Instant

/-! ## Padded numbers -/

theorem length_padded {width n : Nat} (hw : 0 < width) (h : n < 10 ^ width) :
    (padded width n).length = width := by
  have hle := (Decimal.length_digits_le_iff n hw).mpr h
  rw [padded]
  simp only [List.length_append, List.length_replicate]
  omega

theorem isDigit_of_mem_padded {width n : Nat} {c : Char} (h : c ∈ padded width n) :
    Decimal.isDigit c = true := by
  rw [padded] at h
  rcases List.mem_append.mp h with h | h
  · rw [List.eq_of_mem_replicate h]
    rfl
  · exact Decimal.isDigit_of_mem_digits h

theorem value_padded (width n : Nat) : Decimal.value (padded width n) = n := by
  rw [padded, Decimal.value, Decimal.valueFrom_append, Decimal.valueFrom_replicate_zero,
    Nat.mul_zero]
  exact Decimal.value_digits n

/-- A number padded to its width is read back. -/
theorem exactDigits?_padded {width n : Nat} (hw : 0 < width) (h : n < 10 ^ width)
    (rest : List Char) : exactDigits? width (padded width n ++ rest) = some (n, rest) := by
  have hlength := length_padded hw h
  have htake : (padded width n ++ rest).take width = padded width n := by
    rw [List.take_append_of_le_length (Nat.le_of_eq hlength.symm), List.take_of_length_le (Nat.le_of_eq hlength)]
  have hdrop : (padded width n ++ rest).drop width = rest := by
    rw [List.drop_append_of_le_length (Nat.le_of_eq hlength.symm), List.drop_of_length_le (Nat.le_of_eq hlength),
      List.nil_append]
  have hall : (padded width n).all Decimal.isDigit = true :=
    List.all_eq_true.mpr fun _ hc => isDigit_of_mem_padded hc
  rw [exactDigits?, htake, hdrop, hlength, hall, value_padded]
  simp

theorem expect?_cons (c : Char) (r : List Char) : expect? c (c :: r) = some r := if_pos rfl

/-! ## Fractions -/

/-- The digits of a fraction stand for the milliseconds, whatever zeros were dropped. -/
theorem nanos_fraction {ms : Nat} (h : ms < 1000) : nanos (fraction ms) = ms * 1000000 := by
  obtain ⟨z, hlength, hvalue, -⟩ := Decimal.value_stripped (padded 3 ms)
  rw [length_padded (by decide) h] at hlength
  rw [value_padded] at hvalue
  have hfraction : fraction ms = Decimal.stripped (padded 3 ms) := rfl
  rw [nanos, hfraction, List.take_of_length_le (by omega),
    show 9 - (Decimal.stripped (padded 3 ms)).length = z + 6 by omega, Nat.pow_eq, Nat.pow_add,
    ← Nat.mul_assoc, hvalue]

theorem isDigit_of_mem_fraction {ms : Nat} {c : Char} (h : c ∈ fraction ms) :
    Decimal.isDigit c = true := by
  obtain ⟨-, -, -, hmem⟩ := Decimal.value_stripped (padded 3 ms)
  exact isDigit_of_mem_padded (hmem c h)

/-- A fraction is read back, also when it is left out. -/
theorem readFraction?_fraction {ms : Nat} (h : ms < 1000) :
    readFraction? ((if (fraction ms).isEmpty then [] else '.' :: fraction ms) ++ ['Z']) =
      some (ms * 1000000, ['Z']) := by
  have hnanos := nanos_fraction h
  by_cases hempty : fraction ms = []
  · rw [hempty] at hnanos ⊢
    obtain rfl : ms = 0 := by
      have hzero : nanos [] = 0 := rfl
      omega
    rfl
  · have hz : Decimal.isDigit 'Z' = false := by decide
    have hall : ∀ c ∈ fraction ms, Decimal.isDigit c = true := fun c hc => isDigit_of_mem_fraction hc
    have hisEmpty : (fraction ms).isEmpty = false := by rw [List.isEmpty_eq_false_iff]; exact hempty
    rw [hisEmpty, if_neg Bool.false_ne_true, List.cons_append, readFraction?]
    rw [List.takeWhile_append_of_pos hall, List.dropWhile_append_of_pos hall, List.takeWhile_cons,
      List.dropWhile_cons, hz, if_neg Bool.false_ne_true, if_neg Bool.false_ne_true, List.append_nil,
      hisEmpty, if_neg Bool.false_ne_true, hnanos]

/-! ## Timestamps -/

theorem bind_of_some {σ τ : Type} {o : Option σ} {x : σ} (h : o = some x) (f : σ → Option τ) :
    (o >>= f) = f x := by
  rw [h]
  rfl

/-- What is read when every field is read; a leap second is not among the fields. -/
theorem readTimestamp?_fields {Y M D h m s F : List Char} {year month day hour minute second ns : Nat}
    (hY : ∀ rest, exactDigits? 4 (Y ++ rest) = some (year, rest))
    (hM : ∀ rest, exactDigits? 2 (M ++ rest) = some (month, rest))
    (hD : ∀ rest, exactDigits? 2 (D ++ rest) = some (day, rest))
    (hh : ∀ rest, exactDigits? 2 (h ++ rest) = some (hour, rest))
    (hm : ∀ rest, exactDigits? 2 (m ++ rest) = some (minute, rest))
    (hs : ∀ rest, exactDigits? 2 (s ++ rest) = some (second, rest))
    (hF : readFraction? F = some (ns, ['Z']))
    (hdate : CalendarDate.isValid ⟨year, month, day⟩ = true)
    (hclock : hour ≤ 23 ∧ minute ≤ 59 ∧ second ≤ 59) :
    readTimestamp? (Y ++ '-' :: (M ++ '-' :: (D ++ 'T' :: (h ++ ':' :: (m ++ ':' :: (s ++ F)))))) =
      some (Int.tdiv ((CalendarDate.dayNumber ⟨year, month, day⟩ * 86400 + hour * 3600 +
        minute * 60 + second) * 1000000000 + ns) 1000000) := by
  have hleap : (second == 60) = false := beq_false_of_ne (by omega)
  have hchecked : (CalendarDate.isValid ⟨year, month, day⟩ && decide (hour ≤ 23) &&
      decide (minute ≤ 59) && decide (second ≤ 60)) = true := by
    rw [hdate]
    simp only [Bool.true_and, Bool.and_eq_true, decide_eq_true_eq]
    omega
  have hoffset : readOffset? ['Z'] = some 0 := rfl
  rw [readTimestamp?]
  -- one field after the other, from the left
  refine (bind_of_some (hY _) _).trans ((bind_of_some (expect?_cons _ _) _).trans ?_)
  refine (bind_of_some (hM _) _).trans ((bind_of_some (expect?_cons _ _) _).trans ?_)
  refine (bind_of_some (hD _) _).trans ((if_pos (show 'T'.toNat < 0x80 by decide)).trans ?_)
  refine (bind_of_some (hh _) _).trans ((bind_of_some (expect?_cons _ _) _).trans ?_)
  refine (bind_of_some (hm _) _).trans ((bind_of_some (expect?_cons _ _) _).trans ?_)
  refine (bind_of_some (hs _) _).trans ((bind_of_some hF _).trans ?_)
  refine (bind_of_some hoffset _).trans ?_
  rw [if_pos hchecked, hleap]
  simp only [Bool.false_and, if_neg Bool.false_ne_true, Int.zero_mul, Int.sub_zero]

/-- **The timestamp of an instant is read as that instant**, from 1970 to the end of 9999. -/
theorem readTimestamp?_timestamp {ms : Int} (h0 : 0 ≤ ms) (h1 : ms ≤ lastTimestamp) :
    readTimestamp? (timestamp ms).toList = some ms := by
  obtain ⟨day, t, rfl, ht, hday0, hday1⟩ : ∃ (day : Int) (t : Nat), ms = day * 86400000 + t ∧
      t < 86400000 ∧ 0 ≤ day ∧ day ≤ 2932896 := by
    rw [lastTimestamp] at h1
    exact ⟨ms / 86400000, (ms % 86400000).toNat, by omega, by omega, by omega, by omega⟩
  have hsplit : split (day * 86400000 + t) = (CalendarDate.ofDayNumber day, t) := by
    rw [split, dayMillis, Int.fdiv_eq_ediv_of_nonneg _ (by decide),
      Int.fmod_eq_emod_of_nonneg _ (by decide)]
    congr 2
    · omega
    · omega
  have hvalid := CalendarDate.isValid_ofDayNumber day
  have hnumber := CalendarDate.dayNumber_ofDayNumber day
  obtain ⟨hyear0, hyear1⟩ := CalendarDate.year_ofDayNumber hday0 hday1
  generalize CalendarDate.ofDayNumber day = date at *
  obtain ⟨year, month, dayOfMonth⟩ := date
  obtain ⟨y, rfl⟩ := Int.eq_ofNat_of_zero_le hyear0
  have hy : y ≤ 9999 := Int.ofNat_le.mp hyear1
  have hmonth : month < 100 ∧ dayOfMonth < 100 := by
    simp only [CalendarDate.isValid, CalendarDate.monthLength, Bool.and_eq_true,
      decide_eq_true_eq] at hvalid
    obtain ⟨⟨⟨-, hm⟩, -⟩, hd⟩ := hvalid
    refine ⟨by omega, Nat.lt_of_le_of_lt hd ?_⟩
    split
    · split <;> decide
    · split <;> decide
  -- every field is two digits, and no second is a leap second
  have field : ∀ n < 100, ∀ rest, exactDigits? 2 (padded 2 n ++ rest) = some (n, rest) :=
    fun n hn rest => exactDigits?_padded (by decide) hn rest
  have hyear : ∀ rest, exactDigits? 4 (padded 4 y ++ rest) = some (y, rest) :=
    fun rest => exactDigits?_padded (by decide) (by omega) rest
  have hmillis : (day * 86400 + (t / 3600000 : Nat) * 3600 + (t / 60000 % 60 : Nat) * 60 +
      (t / 1000 % 60 : Nat)) * 1000000000 + (t % 1000 * 1000000 : Nat) =
      1000000 * (day * 86400000 + t) := by
    omega
  rw [timestamp, hsplit]
  simp only [String.toList_ofList, Int.toNat_natCast, List.append_assoc, List.cons_append]
  rw [readTimestamp?_fields hyear (field month hmonth.1) (field dayOfMonth hmonth.2)
    (field (t / 3600000) (by omega)) (field (t / 60000 % 60) (by omega))
    (field (t / 1000 % 60) (by omega)) (readFraction?_fraction (show t % 1000 < 1000 by omega))
    hvalid ⟨by omega, by omega, by omega⟩]
  rw [hnumber, hmillis, Int.mul_tdiv_cancel_left _ (by decide)]

end Instant
end Polyshell
