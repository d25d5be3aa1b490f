/-
  Random identifiers: sixteen bytes, written in five groups of hexadecimal digits.

  Six of the bits are fixed: four say that the identifier is random (version 4), two which layout it
  has.
-/
import Polyshell.Text.Quoted

namespace Polyshell.Text.Uuid

/-- A number with the four bits of version 4 or the two bits of the layout in front. -/
def marked (i : Nat) (b : UInt8) : Nat :=
  if i = 6 then 64 + b.toNat % 16 else if i = 8 then 128 + b.toNat % 64 else b.toNat

/-- Two digits. -/
def pair (n : Nat) : List Char := [Nat.digitChar (n / 16), Nat.digitChar (n % 16)]

/-- Whether a hyphen stands in front of a byte. -/
def startsGroup (i : Nat) : Bool := i = 4 || i = 6 || i = 8 || i = 10

/-- The identifier that random bytes make. -/
def ofBytes (bytes : List UInt8) : String :=
  String.ofList <| bytes.zipIdx.flatMap fun (b, i) =>
    (if startsGroup i then ['-'] else []) ++ pair (marked i b)

example : ofBytes (List.replicate 16 255) = "ffffffff-ffff-4fff-bfff-ffffffffffff" := by
  decide +kernel

end Polyshell.Text.Uuid
