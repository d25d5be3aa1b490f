/-
  Percent-encoding: texts inside the parts of an address.

  A byte of the UTF-8 form stands for itself if it is unreserved (an ASCII letter, a digit, or one of
  four marks), and as a percent sign with two upper-case hexadecimal digits otherwise.  So no part
  holds a character that divides an address, and `decode?_encode` gives the bytes back.
-/
import Polyshell.Text.Utf8

namespace Polyshell.Text.Percent

/-! ## Writing -/

/-- The bytes that stand for themselves. -/
def isUnreserved (b : UInt8) : Bool :=
  let c := Char.ofNat b.toNat
  b < 0x80 && (c.isAlphanum || c = '-' || c = '.' || c = '_' || c = '~')

/-- A hexadecimal digit in upper case. -/
def hexDigit (n : Nat) : Char := (Nat.digitChar n).toUpper

/-- One byte. -/
def encodeByte (b : UInt8) : List Char :=
  if isUnreserved b then [Char.ofNat b.toNat]
  else ['%', hexDigit (b.toNat / 16), hexDigit (b.toNat % 16)]

/-- The bytes of a text. -/
def encode (s : String) : List Char := (Utf8.encode s).flatMap encodeByte

/-! ## Reading -/

/-- The bytes that a text stands for. -/
def decode? : List Char → Option (List UInt8)
  | [] => some []
  | '%' :: a :: b :: r => do
    let hi ← Utf8.hexValue? a
    let lo ← Utf8.hexValue? b
    let rest ← decode? r
    return UInt8.ofNat (hi * 16 + lo) :: rest
  | c :: r =>
    if c = '%' || 0x80 ≤ c.toNat then none
    else (decode? r).map (UInt8.ofNat c.toNat :: ·)

/-! ## Both ways -/

/-- An unreserved byte is ASCII, and no percent sign. -/
theorem ofNat_of_isUnreserved {b : UInt8} (h : isUnreserved b = true) :
    Char.ofNat b.toNat ≠ '%' ∧ (Char.ofNat b.toNat).toNat < 0x80 ∧
      UInt8.ofNat (Char.ofNat b.toNat).toNat = b := by
  have all : ∀ n : Fin 128, isUnreserved (UInt8.ofNat n) = true → Char.ofNat n ≠ '%' ∧
      (Char.ofNat n).toNat < 0x80 ∧ UInt8.ofNat (Char.ofNat n).toNat = UInt8.ofNat n := by
    decide
  have hb : b.toNat < 128 := by
    have : b < 0x80 := by simp only [isUnreserved, Bool.and_eq_true, decide_eq_true_eq] at h; exact h.1
    simpa using UInt8.lt_iff_toNat_lt.1 this
  have := all ⟨b.toNat, hb⟩
  simp only [UInt8.ofNat_toNat] at this
  exact this h

/-- The two digits of a byte read back. -/
theorem hexValue?_hexDigit : ∀ n : Fin 16, Utf8.hexValue? (hexDigit n) = some n.val := by
  decide

theorem decode?_encodeByte (b : UInt8) (r : List Char) :
    decode? (encodeByte b ++ r) = (decode? r).map (b :: ·) := by
  unfold encodeByte
  split
  · rename_i h
    obtain ⟨hp, hlt, hb⟩ := ofNat_of_isUnreserved h
    have hd : decode? (Char.ofNat b.toNat :: r) =
        (decode? r).map (UInt8.ofNat (Char.ofNat b.toNat).toNat :: ·) := by
      rw [decode?]
      · simp [hp, Nat.not_le.2 hlt]
      · intro a b' r' hc _
        exact hp hc
    simpa [hb] using hd
  · have hhi : b.toNat / 16 < 16 := by have := b.toNat_lt; omega
    have hlo : b.toNat % 16 < 16 := by omega
    have h1 := hexValue?_hexDigit ⟨_, hhi⟩
    have h2 := hexValue?_hexDigit ⟨_, hlo⟩
    have hsum : b.toNat / 16 * 16 + b.toNat % 16 = b.toNat := by omega
    simp only [List.cons_append, List.nil_append, decode?, h1, h2, Option.bind_eq_bind,
      Option.bind_some, Option.pure_def]
    rw [hsum]
    cases decode? r <;> simp

/-- Decoding gives the bytes of the text back. -/
theorem decode?_encode (s : String) : decode? (encode s) = some (Utf8.encode s) := by
  have h : ∀ bs : List UInt8, decode? (bs.flatMap encodeByte) = some bs := by
    intro bs
    induction bs with
    | nil => rfl
    | cons b r ih => simp [List.flatMap_cons, decode?_encodeByte, ih]
  exact h _

example : encode "p@ss:wörd" = "p%40ss%3Aw%C3%B6rd".toList := by decide +kernel

end Polyshell.Text.Percent
