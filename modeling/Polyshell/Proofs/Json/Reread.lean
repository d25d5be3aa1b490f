/-
  What becomes of a value that is printed and read again.

  The reader keeps everything but two things.  A double comes back as the reader computes it from
  its digits, which need not be the double that was printed; and an object is filled member by
  member, so of several members with one key only one is left.  `reread` is a value with both
  applied to it.  Values without doubles and without repeated keys come back unchanged
  (`reread_of_exact`).

  `Valid` says that every number is one that the shell can hold: a whole number of 64 bits, signed
  or not, or a finite double.  `nesting` counts the containers around the innermost value.
-/
import Polyshell.Proofs.Json.RealText
import Polyshell.Proofs.Json.Spelling

namespace Polyshell

/-! ## Members filled one after another -/

theorem Members.ofList_of_nodup {α : Type} (ms : List (String × α)) (h : (ms.map Prod.fst).Nodup) :
    Members.ofList ms = ms := by
  have hfold : ∀ (ms acc : List (String × α)), ((acc ++ ms).map Prod.fst).Nodup →
      ms.foldl (fun acc m => Members.put m.1 m.2 acc) acc = acc ++ ms := by
    intro ms
    induction ms with
    | nil => intro acc _; rw [List.foldl_nil, List.append_nil]
    | cons m ms ih =>
      intro acc h
      have hfresh : m.1 ∉ acc.map Prod.fst := by
        intro hm
        rw [List.map_append, List.nodup_append] at h
        exact h.2.2 m.1 hm m.1 (by rw [List.map_cons]; exact List.mem_cons_self) rfl
      rw [List.foldl_cons, Members.put_of_not_mem _ _ _ hfresh, ih _ (by
        rwa [List.append_assoc, List.singleton_append]), List.append_assoc, List.singleton_append]
  rw [Members.ofList, hfold ms [] (by rwa [List.nil_append]), List.nil_append]

namespace Json

/-! ## Numbers -/

/-- A number of the shell. -/
def Number.Valid : Number → Prop
  | .int i => Decimal.minInt64 ≤ i ∧ i ≤ Decimal.maxWord64
  | .real x => x.isFinite = true

/-- The number that the printed form reads as. -/
def Number.reread (n : Number) : Number :=
  match readSigned n.text with
  | .ok (m, _) => m
  | .error _ => n

theorem Number.reread_of_numeral {n m : Number} (h : Numeral n.text m) : n.reread = m := by
  rw [Number.reread, h.reads]

/-- Every number of the shell is printed as a number of JSON. -/
theorem Number.numeral_of_valid {n : Number} (h : n.Valid) : Numeral n.text n.reread := by
  have hnumeral : ∃ m, Numeral n.text m := by
    cases n with
    | int i => exact ⟨_, numeral_intText h.1 h.2⟩
    | real x =>
      obtain ⟨y, hy⟩ := numeral_inJson h
      exact ⟨_, hy⟩
  obtain ⟨m, hm⟩ := hnumeral
  rw [Number.reread_of_numeral hm]
  exact hm

theorem Number.reread_int {i : Int} (h : (Number.int i).Valid) : (Number.int i).reread = .int i :=
  Number.reread_of_numeral (numeral_intText h.1 h.2)

/-! ## Values -/

mutual

/-- Every number in it is one of the shell. -/
def Valid : Json → Prop
  | .null => True
  | .bool _ => True
  | .num n => n.Valid
  | .str _ => True
  | .arr items => ValidItems items
  | .obj members => ValidMembers members

def ValidItems : List Json → Prop
  | [] => True
  | v :: r => v.Valid ∧ ValidItems r

def ValidMembers : List (String × Json) → Prop
  | [] => True
  | (_, v) :: r => v.Valid ∧ ValidMembers r

end

mutual

/-- How many containers stand around the innermost value. -/
def nesting : Json → Nat
  | .null => 0
  | .bool _ => 0
  | .num _ => 0
  | .str _ => 0
  | .arr items => nestingItems items + 1
  | .obj members => nestingMembers members + 1

def nestingItems : List Json → Nat
  | [] => 0
  | v :: r => max v.nesting (nestingItems r)

def nestingMembers : List (String × Json) → Nat
  | [] => 0
  | (_, v) :: r => max v.nesting (nestingMembers r)

end

mutual

/-- The value that the printed form reads as. -/
def reread : Json → Json
  | .null => .null
  | .bool b => .bool b
  | .num n => .num n.reread
  | .str s => .str s
  | .arr items => .arr (rereadItems items)
  | .obj members => .obj (Members.ofList (rereadMembers members))

def rereadItems : List Json → List Json
  | [] => []
  | v :: r => v.reread :: rereadItems r

def rereadMembers : List (String × Json) → List (String × Json)
  | [] => []
  | (k, v) :: r => (k, v.reread) :: rereadMembers r

end

/-- The same for what stands between the brackets of a container. -/
def Part.Valid : Part → Prop
  | .value v => v.Valid
  | .items vs => ValidItems vs
  | .members ms => ValidMembers ms

def Part.nesting : Part → Nat
  | .value v => v.nesting
  | .items vs => nestingItems vs
  | .members ms => nestingMembers ms

def Part.reread : Part → Part
  | .value v => .value v.reread
  | .items vs => .items (rereadItems vs)
  | .members ms => .members (rereadMembers ms)

/-! ## Values that come back unchanged -/

mutual

/-- Whole numbers only, and no key twice in one object. -/
def Exact : Json → Prop
  | .null => True
  | .bool _ => True
  | .num (.int i) => (Number.int i).Valid
  | .num (.real _) => False
  | .str _ => True
  | .arr items => ExactItems items
  | .obj members => (members.map Prod.fst).Nodup ∧ ExactMembers members

def ExactItems : List Json → Prop
  | [] => True
  | v :: r => v.Exact ∧ ExactItems r

def ExactMembers : List (String × Json) → Prop
  | [] => True
  | (_, v) :: r => v.Exact ∧ ExactMembers r

end

mutual

theorem reread_of_exact : ∀ v : Json, v.Exact → v.reread = v
  | .null, _ => by rw [reread]
  | .bool _, _ => by rw [reread]
  | .str _, _ => by rw [reread]
  | .num (.int i), h => by
    rw [Exact] at h
    rw [reread, Number.reread_int h]
  | .num (.real _), h => by
    rw [Exact] at h
    exact h.elim
  | .arr items, h => by
    rw [Exact] at h
    rw [reread, rereadItems_of_exact items h]
  | .obj members, h => by
    rw [Exact] at h
    rw [reread, rereadMembers_of_exact members h.2, Members.ofList_of_nodup members h.1]

theorem rereadItems_of_exact : ∀ items : List Json, ExactItems items → rereadItems items = items
  | [], _ => by rw [rereadItems]
  | v :: r, h => by
    rw [ExactItems] at h
    rw [rereadItems, reread_of_exact v h.1, rereadItems_of_exact r h.2]

theorem rereadMembers_of_exact : ∀ members : List (String × Json), ExactMembers members →
    rereadMembers members = members
  | [], _ => by rw [rereadMembers]
  | (k, v) :: r, h => by
    rw [ExactMembers] at h
    rw [rereadMembers, reread_of_exact v h.1, rereadMembers_of_exact r h.2]

end

mutual

theorem valid_of_exact : ∀ v : Json, v.Exact → v.Valid
  | .null, _ => by rw [Valid]; trivial
  | .bool _, _ => by rw [Valid]; trivial
  | .str _, _ => by rw [Valid]; trivial
  | .num (.int i), h => by
    rw [Exact] at h
    rwa [Valid]
  | .num (.real _), h => by
    rw [Exact] at h
    exact h.elim
  | .arr items, h => by
    rw [Exact] at h
    rw [Valid]
    exact validItems_of_exact items h
  | .obj members, h => by
    rw [Exact] at h
    rw [Valid]
    exact validMembers_of_exact members h.2

theorem validItems_of_exact : ∀ items : List Json, ExactItems items → ValidItems items
  | [], _ => by rw [ValidItems]; trivial
  | v :: r, h => by
    rw [ExactItems] at h
    rw [ValidItems]
    exact ⟨valid_of_exact v h.1, validItems_of_exact r h.2⟩

theorem validMembers_of_exact : ∀ members : List (String × Json), ExactMembers members →
    ValidMembers members
  | [], _ => by rw [ValidMembers]; trivial
  | (k, v) :: r, h => by
    rw [ExactMembers] at h
    rw [ValidMembers]
    exact ⟨valid_of_exact v h.1, validMembers_of_exact r h.2⟩

end

end Json
end Polyshell
