/-
  Texts as bytes.

  Positions in messages, and limits on names, count the bytes of the UTF-8 form; `byteLength` is
  that count on a scanned text.  The other way round, replies arrive as bytes that need not be
  valid.  `step` reads one character off the front and says how many further bytes belong to it.
  Two readers are built from it: `decode?` refuses a text with an ill-formed byte, and
  `decodeLossy` puts U+FFFD for each maximal piece that cannot be continued to a character.
-/

namespace Polyshell.Text.Utf8

/-! ## Counting -/

/-- The number of bytes in the UTF-8 form of `s`. -/
def byteLength : List Char → Nat
  | [] => 0
  | c :: r => c.utf8Size + byteLength r

theorem byteLength_append (s t : List Char) :
    byteLength (s ++ t) = byteLength s + byteLength t := by
  induction s with
  | nil => simp [byteLength]
  | cons c r ih => simp [byteLength, ih, Nat.add_assoc]

/-- The bytes of a text. -/
def encode (s : String) : List UInt8 := s.toUTF8.toList

/-! ## Decoding -/

/-- Whether `b` lies between the two bounds. -/
def within (lo hi : UInt8) (b : UInt8) : Bool := lo ≤ b && b ≤ hi

/-- The six payload bits of a continuation byte. -/
def payload (b : UInt8) : Nat := b.toNat % 64

/-- A character whose first byte is `b` and whose second must lie in `lo … hi`, with `more`
    further continuation bytes.  The second part of the answer counts the bytes after `b` that
    belong to the character, or to its longest well-formed beginning. -/
def stepTail (value : Nat) (lo hi : UInt8) : (more : Nat) → (r : List UInt8) →
    Option Char × Nat
  | 0, b :: _ => if within lo hi b then (some (Char.ofNat (value * 64 + payload b)), 1) else (none, 0)
  | more + 1, b :: r =>
    if within lo hi b then
      let next := stepTail (value * 64 + payload b) 0x80 0xBF more r
      (next.1, next.2 + 1)
    else (none, 0)
  | _, [] => (none, 0)

/-- The character that starts with `b`, if the bytes after it complete one, and how many of those
    bytes are used up. -/
def step (b : UInt8) (r : List UInt8) : Option Char × Nat :=
  if b < 0x80 then (some (Char.ofNat b.toNat), 0)
  else if b < 0xC2 then (none, 0)
  else if b < 0xE0 then stepTail (b.toNat % 32) 0x80 0xBF 0 r
  else if b < 0xF0 then
    stepTail (b.toNat % 16) (if b = 0xE0 then 0xA0 else 0x80) (if b = 0xED then 0x9F else 0xBF) 1 r
  else if b < 0xF5 then
    stepTail (b.toNat % 8) (if b = 0xF0 then 0x90 else 0x80) (if b = 0xF4 then 0x8F else 0xBF) 2 r
  else (none, 0)

/-- The text with U+FFFD for each piece that is not a character. -/
def decodeLossy : List UInt8 → List Char
  | [] => []
  | b :: r => (step b r).1.getD '\uFFFD' :: decodeLossy (r.drop (step b r).2)
termination_by bytes => bytes.length
decreasing_by simp only [List.length_drop, List.length_cons]; omega

/-- The text, if every byte belongs to a character. -/
def decode? : List UInt8 → Option (List Char)
  | [] => some []
  | b :: r => do
    let c ← (step b r).1
    let cs ← decode? (r.drop (step b r).2)
    return c :: cs
termination_by bytes => bytes.length
decreasing_by simp only [List.length_drop, List.length_cons]; omega

/-! ## Hexadecimal -/

/-- The value of a hexadecimal digit of either case. -/
def hexValue? (c : Char) : Option Nat :=
  if '0' ≤ c && c ≤ '9' then some (c.toNat - 48)
  else if 'a' ≤ c && c ≤ 'f' then some (c.toNat - 87)
  else if 'A' ≤ c && c ≤ 'F' then some (c.toNat - 55)
  else none

/-- The bytes that pairs of hexadecimal digits stand for. -/
def bytesOfHex? : List Char → Option (List UInt8)
  | [] => some []
  | [_] => none
  | a :: b :: r => do
    let hi ← hexValue? a
    let lo ← hexValue? b
    let rest ← bytesOfHex? r
    return UInt8.ofNat (hi * 16 + lo) :: rest

end Polyshell.Text.Utf8
