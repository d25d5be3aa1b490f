/-
  What the decimal digits of a number are: digits, at least one, no leading zero, and read back as
  the number.

  `digits` is the core library's `Nat.toDigits`, and `valueFrom` its `Nat.ofDigitChars`; so the
  round trip comes from there.  What a reader needs beyond that is where the first digit is zero
  (`head_digits`), how large a run of digits can be (`le_valueFrom`, `value_lt`), and that the zeros
  at its end only count a power of ten (`value_stripped`).
-/
import Polyshell.Decimal.Whole
import Mathlib.Algebra.Group.Nat.Defs

namespace Polyshell.Decimal

/-! ## One digit -/

theorem isDigit_iff (c : Char) : isDigit c = true ↔ 48 ≤ c.toNat ∧ c.toNat ≤ 57 := by
  simp only [isDigit, Bool.and_eq_true, decide_eq_true_eq, Char.le_def, UInt32.le_iff_toNat_le]
  exact Iff.rfl

theorem digitValue_lt {c : Char} (h : isDigit c = true) : digitValue c < 10 := by
  rw [isDigit_iff] at h
  unfold digitValue
  omega

theorem isDigit_digitChar {n : Nat} (h : n < 10) : isDigit (Nat.digitChar n) = true := by
  have hall : ∀ i : Fin 10, isDigit (Nat.digitChar i.val) = true := by decide
  exact hall ⟨n, h⟩

theorem digitValue_digitChar {n : Nat} (h : n < 10) : digitValue (Nat.digitChar n) = n := by
  rw [digitValue, Nat.toNat_digitChar_sub_48_of_lt_ten h]

/-! ## Runs of digits -/

@[simp] theorem valueFrom_nil (acc : Nat) : valueFrom acc [] = acc := rfl

@[simp] theorem valueFrom_cons (acc : Nat) (c : Char) (s : List Char) :
    valueFrom acc (c :: s) = valueFrom (10 * acc + digitValue c) s := by
  rw [valueFrom, List.foldl_cons, valueFrom]

/-- The digits so far count a power of ten for each digit to come. -/
theorem valueFrom_eq (acc : Nat) (s : List Char) :
    valueFrom acc s = 10 ^ s.length * acc + value s :=
  Nat.ofDigitChars_eq_ofDigitChars_zero

/-- Reading on never makes the number smaller. -/
theorem le_valueFrom (acc : Nat) (s : List Char) : acc ≤ valueFrom acc s := by
  rw [valueFrom_eq]
  have hpos : 1 ≤ 10 ^ s.length := Nat.one_le_pow _ _ (by decide)
  have hmul : 1 * acc ≤ 10 ^ s.length * acc := Nat.mul_le_mul_right acc hpos
  omega

/-- A run of digits stays below the power of ten of its length. -/
theorem value_lt {s : List Char} (h : ∀ c ∈ s, isDigit c = true) : value s < 10 ^ s.length := by
  induction s with
  | nil => exact Nat.one_pos
  | cons c s ih =>
    have hs := ih fun d hd => h d (List.mem_cons_of_mem c hd)
    have hc := digitValue_lt (h c List.mem_cons_self)
    rw [value, valueFrom_cons, Nat.mul_zero, Nat.zero_add, valueFrom_eq, List.length_cons,
      Nat.pow_succ]
    have hmul : 10 ^ s.length * digitValue c ≤ 10 ^ s.length * 9 :=
      Nat.mul_le_mul_left _ (by omega)
    omega

@[simp] theorem valueFrom_replicate_zero (acc n : Nat) :
    valueFrom acc (List.replicate n '0') = 10 ^ n * acc :=
  Nat.ofDigitChars_replicate_zero

/-- A run of digits without the zeros at its end. -/
def stripped (s : List Char) : List Char := (s.reverse.dropWhile (· == '0')).reverse

theorem exists_stripped (s : List Char) : ∃ z, s = stripped s ++ List.replicate z '0' := by
  have hsplit := congrArg List.reverse
    (List.takeWhile_append_dropWhile (p := (· == '0')) (l := s.reverse))
  rw [List.reverse_append, List.reverse_reverse] at hsplit
  refine ⟨(s.reverse.takeWhile (· == '0')).reverse.length, ?_⟩
  refine hsplit.symm.trans (congrArg (stripped s ++ ·) ?_)
  rw [List.eq_replicate_iff]
  refine ⟨rfl, fun c hc => ?_⟩
  have hall := List.all_takeWhile (p := (· == '0')) (l := s.reverse)
  rw [List.all_eq_true] at hall
  exact eq_of_beq (hall c (List.mem_reverse.mp hc))

/-- What is stripped off counts a power of ten. -/
theorem value_stripped (s : List Char) :
    ∃ z : Nat, s.length = (stripped s).length + z ∧ value (stripped s) * 10 ^ z = value s ∧
      ∀ c ∈ stripped s, c ∈ s := by
  obtain ⟨z, hz⟩ := exists_stripped s
  refine ⟨z, ?_, ?_, fun c hc => hz ▸ List.mem_append_left _ hc⟩
  · have hlength := congrArg List.length hz
    rwa [List.length_append, List.length_replicate] at hlength
  · have hvalue := congrArg value hz
    rw [value, value, valueFrom_append, valueFrom_replicate_zero, Nat.mul_comm] at hvalue
    exact hvalue.symm

theorem allDigits_eq_true_iff (s : List Char) :
    allDigits s = true ↔ s ≠ [] ∧ ∀ c ∈ s, isDigit c = true := by
  cases s <;> simp [allDigits]

/-! ## The digits of a number -/

theorem digits_ne_nil (n : Nat) : digits n ≠ [] := Nat.toDigits_ne_nil

/-- One more digit behind those of the number without its last one. -/
theorem digits_eq (n : Nat) :
    digits n = if n < 10 then [Nat.digitChar n] else digits (n / 10) ++ [Nat.digitChar (n % 10)] :=
  Nat.toDigits_eq_if (by decide)

theorem isDigit_of_mem_digits {n : Nat} {c : Char} (h : c ∈ digits n) : isDigit c = true := by
  have hd : c.isDigit = true := Nat.isDigit_of_mem_toDigits (by decide) (by decide) h
  rw [isDigit_iff]
  simp only [Char.isDigit, Bool.and_eq_true, decide_eq_true_eq, UInt32.le_iff_toNat_le] at hd
  exact hd

/-- A whole number is shown in its digits. -/
theorem toList_toString (n : Nat) : (toString n).toList = digits n := by
  simp [digits, toString, Nat.repr]

theorem allDigits_digits (n : Nat) : allDigits (digits n) = true :=
  (allDigits_eq_true_iff _).mpr ⟨digits_ne_nil n, fun _ h => isDigit_of_mem_digits h⟩

@[simp] theorem value_digits (n : Nat) : value (digits n) = n := Nat.ofDigitChars_ten_toDigits

theorem length_digits_le_iff (n : Nat) {k : Nat} (h : 0 < k) :
    (digits n).length ≤ k ↔ n < 10 ^ k :=
  Nat.length_toDigits_le_iff (by decide) h

/-- A number that is not zero has no leading zero. -/
theorem head_digits {n : Nat} (h : 0 < n) :
    ∃ c r, digits n = c :: r ∧ isDigit c = true ∧ c ≠ '0' := by
  induction n using Nat.strongRecOn with
  | _ n ih =>
    rw [digits_eq]
    by_cases hn : n < 10
    · rw [if_pos hn]
      refine ⟨_, [], rfl, isDigit_digitChar hn, fun hz => ?_⟩
      have hv := digitValue_digitChar hn
      rw [hz] at hv
      have hzero : digitValue '0' = 0 := rfl
      omega
    · rw [if_neg hn]
      obtain ⟨c, r, he, hc, hz⟩ := ih (n / 10) (by omega) (by omega)
      exact ⟨c, r ++ [Nat.digitChar (n % 10)], by rw [he, List.cons_append], hc, hz⟩

end Polyshell.Decimal
