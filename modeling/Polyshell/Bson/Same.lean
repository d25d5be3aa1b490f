/-
  When two BSON values are the same.

  Values of different kinds differ, and so do whole numbers of different widths: `1` in 32 bits is not
  `1` in 64.  Doubles are compared as numbers, so the two zeros are the same and no value that is not
  a number is the same as anything.  The order of members does not count.
-/
import Polyshell.Bson

namespace Polyshell

/-- Whether two doubles are the same number. -/
def Double.same (x y : Double) : Bool :=
  !x.isNaN && !y.isNaN && (x = y || (x.isZero && y.isZero))

namespace Bson

mutual

/-- Whether two values are the same. -/
def same : Bson → Bson → Bool
  | .double x, .double y => x.same y
  | .arr a, .arr b => sameItems a b
  | .doc a, .doc b => a.length == b.length && sameMembers a b
  | .codeWithScope s a, .codeWithScope t b => s == t && a.length == b.length && sameMembers a b
  | .null, .null => true
  | .bool a, .bool b => a == b
  | .int32 a, .int32 b => a == b
  | .int64 a, .int64 b => a == b
  | .str a, .str b => a == b
  | .objectId a, .objectId b => a == b
  | .date a, .date b => a == b
  | .binary s a, .binary t b => s == t && a == b
  | .decimal a, .decimal b => a == b
  | .regex p o, .regex q u => p == q && o == u
  | .code a, .code b => a == b
  | .timestamp t i, .timestamp u j => t == u && i == j
  | .symbol a, .symbol b => a == b
  | .undefined, .undefined => true
  | .minKey, .minKey => true
  | .maxKey, .maxKey => true
  | .dbPointer n a, .dbPointer m b => n == m && a == b
  | _, _ => false

def sameItems : List Bson → List Bson → Bool
  | [], [] => true
  | v :: r, w :: s => same v w && sameItems r s
  | _, _ => false

/-- Whether each member of the first document is in the second one. -/
def sameMembers : List (String × Bson) → List (String × Bson) → Bool
  | [], _ => true
  | (k, v) :: r, other =>
    (match Members.find? k other with
      | some w => same v w
      | none => false) && sameMembers r other

end

example : same (.int32 1) (.int64 1) = false := by decide +kernel
example : same (.doc [("a", .null), ("b", .bool true)]) (.doc [("b", .bool true), ("a", .null)]) =
    true := by decide +kernel

end Bson
end Polyshell
