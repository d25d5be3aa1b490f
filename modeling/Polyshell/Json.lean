/-
  JSON values whose members keep their order.

  A number is either a whole number or a double, as its text said: `1` and `1.0` are different
  values.  An object is a list of members in the order of first writing; `put` is the only way in,
  and gives a repeated key its first place and its last value, so that keys stay distinct
  (`put_of_mem`, `put_of_not_mem`).
-/
import Polyshell.Double

namespace Polyshell

/-! ## Members of an object, in order -/

namespace Members

variable {α : Type}

/-- The value under `key`. -/
def find? (key : String) : List (String × α) → Option α
  | [] => none
  | (k, v) :: r => if k = key then some v else find? key r

/-- `value` under `key`: in place of the value that stands there, else at the end. -/
def put (key : String) (value : α) : List (String × α) → List (String × α)
  | [] => [(key, value)]
  | (k, v) :: r => if k = key then (k, value) :: r else (k, v) :: put key value r

/-- The members put one after another into an empty object. -/
def ofList (members : List (String × α)) : List (String × α) :=
  members.foldl (fun acc m => put m.1 m.2 acc) []

/-- The members without `key`. -/
def erase (key : String) (members : List (String × α)) : List (String × α) :=
  members.filter fun m => m.1 != key

theorem find?_cons (key : String) (m : String × α) (members : List (String × α)) :
    find? key (m :: members) = if m.1 = key then some m.2 else find? key members := rfl

theorem put_nil (key : String) (value : α) : put key value [] = [(key, value)] := rfl

theorem put_cons (key : String) (value : α) (m : String × α) (members : List (String × α)) :
    put key value (m :: members) =
      if m.1 = key then (m.1, value) :: members else m :: put key value members := rfl

/-- A key that is not there goes to the end. -/
theorem put_of_not_mem (key : String) (value : α) (members : List (String × α))
    (h : key ∉ members.map Prod.fst) : put key value members = members ++ [(key, value)] := by
  induction members with
  | nil => rfl
  | cons m r ih =>
    simp only [List.map_cons, List.mem_cons, not_or] at h
    rw [put_cons, if_neg (Ne.symm h.1), ih h.2, List.cons_append]

/-- A key that is there keeps its place: the keys do not change. -/
theorem put_of_mem (key : String) (value : α) (members : List (String × α))
    (h : key ∈ members.map Prod.fst) :
    (put key value members).map Prod.fst = members.map Prod.fst := by
  induction members with
  | nil => simp at h
  | cons m r ih =>
    by_cases hk : m.1 = key
    · simp [put_cons, hk]
    · simp only [List.map_cons, List.mem_cons, Ne.symm hk, false_or] at h
      simp [put_cons, hk, ih h]

/-- What was put is found. -/
@[simp] theorem find?_put_self (key : String) (value : α) (members : List (String × α)) :
    find? key (put key value members) = some value := by
  induction members with
  | nil => simp [put_nil, find?_cons]
  | cons m r ih => by_cases hk : m.1 = key <;> simp [put_cons, find?_cons, hk, ih]

/-- Nothing else is found differently. -/
theorem find?_put_of_ne (key other : String) (value : α) (members : List (String × α))
    (h : other ≠ key) : find? other (put key value members) = find? other members := by
  induction members with
  | nil => simp [put_nil, find?_cons, Ne.symm h]
  | cons m r ih =>
    by_cases hk : m.1 = key
    · simp [put_cons, find?_cons, hk, Ne.symm h]
    · by_cases ho : m.1 = other <;> simp [put_cons, find?_cons, hk, ho, ih, h]

end Members

/-! ## Values -/

/-- A number as its text gave it. -/
inductive Json.Number where
  | int (i : Int)
  | real (x : Double)
deriving DecidableEq, Repr

/-- A JSON value. -/
inductive Json where
  | null
  | bool (b : Bool)
  | num (n : Json.Number)
  | str (s : String)
  | arr (items : List Json)
  | obj (members : List (String × Json))
deriving Inhabited, Repr

namespace Json

namespace Number

/-- The number as a signed word of 64 bits, where its text was a whole number in that range. -/
def toInt64? : Number → Option Int
  | .int i => if Decimal.minInt64 ≤ i && i ≤ Decimal.maxInt64 then some i else none
  | .real _ => none

/-- The nearest double. -/
def toDouble : Number → Double
  | .int i => Double.ofInt i
  | .real x => x

end Number

/-- The member of an object. -/
def get? (key : String) : Json → Option Json
  | .obj members => Members.find? key members
  | _ => none

def toStr? : Json → Option String
  | .str s => some s
  | _ => none

def ofNat (n : Nat) : Json := .num (.int n)

def ofInt (i : Int) : Json := .num (.int i)

end Json
end Polyshell
