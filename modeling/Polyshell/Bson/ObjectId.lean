/-
  Object identifiers: ninety-six bits, written as 24 hexadecimal digits.

  `ofHex` reads digits of either case and says what is wrong otherwise; of several faults it
  reports an odd length first, then the first byte that is no digit, then a length other than 24.
  Places and lengths count the bytes of the text.
-/
import Polyshell.Text.Utf8

namespace Polyshell

/-- An object identifier. -/
structure ObjectId where
  word : BitVec 96
deriving DecidableEq, Repr, Inhabited

namespace ObjectId

open Text.Utf8 (hexValue? encode)

/-- The digits of a number to the base 16, padded with zeros to the given width. -/
def hexPadded : (width n : Nat) → List Char
  | 0, _ => []
  | width + 1, n => hexPadded width (n / 16) ++ [Nat.digitChar (n % 16)]

/-- The 24 digits, in lower case. -/
def toHex (id : ObjectId) : String := String.ofList (hexPadded 24 id.word.toNat)

/-- Why a text is no identifier. -/
inductive Fault where
  /-- A byte that is no digit, and its place. -/
  | invalidCharacter (byte : Char) (index : Nat)
  /-- A length other than 24. -/
  | invalidLength (length : Nat)
deriving DecidableEq, Repr

/-- The fault in words. -/
def Fault.message (hex : String) : Fault → String
  | .invalidCharacter c i =>
    "invalid character '" ++ String.singleton c ++ "' was found at index " ++ toString i ++
      " in the provided hex string: \"" ++ hex ++ "\""
  | .invalidLength n =>
    "provided hex string representation must be exactly 12 bytes, instead got: \"" ++ hex ++
      "\", length " ++ toString n

/-- The first byte that is no hexadecimal digit, and its place from `index` on. -/
def firstOther? (index : Nat) : List UInt8 → Option (Char × Nat)
  | [] => none
  | b :: r =>
    match hexValue? (Char.ofNat b.toNat) with
    | some _ => firstOther? (index + 1) r
    | none => some (Char.ofNat b.toNat, index)

/-- The number that hexadecimal digits stand for. -/
def hexNumber (bytes : List UInt8) : Nat :=
  bytes.foldl (fun n b => n * 16 + (hexValue? (Char.ofNat b.toNat)).getD 0) 0

/-- The identifier that a text writes. -/
def ofHex (hex : String) : Except Fault ObjectId :=
  let bytes := encode hex
  if bytes.length % 2 = 1 then .error (.invalidLength bytes.length)
  else match firstOther? 0 bytes with
    | some (c, i) => .error (.invalidCharacter c i)
    | none =>
      if bytes.length = 24 then .ok ⟨BitVec.ofNat 96 (hexNumber bytes)⟩
      else .error (.invalidLength bytes.length)

example : (ofHex "507f1f77bcf86cd799439011").toOption.map toHex = some "507f1f77bcf86cd799439011" := by
  decide +kernel

end ObjectId
end Polyshell
