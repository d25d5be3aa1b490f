/-
  The two printed forms of a value are relaxed texts of it.

  The printer writes a value compactly or spread over lines (`Json.compactText`, `Json.prettyText`),
  and both are ways to write it that the grammar allows: between tokens there is nothing in the
  one, and in the other a new line and an indent, or the blank behind a colon.  So whatever holds of
  all relaxed texts holds of what is printed.

  From this come the main results.  A printed container is read back (`ofText_compact`,
  `ofText_pretty`), and a relaxed literal is read as its strict form is.
-/
import Polyshell.Proofs.Mongo.Relaxed

namespace Polyshell.Mongo

open Polyshell.Text
open Polyshell.Json (Spaces isSpace Body Part stringText compactText prettyText)

/-! ## Strings -/

/-- A printed string is a string literal. -/
theorem Quoted.stringText (s : String) : Quoted s.toList (Json.stringText s) :=
  .double (Body.escaped s.toList)

/-! ## The compact form -/

mutual

theorem Relaxed.compact : ∀ v : Json, Relaxed (.value v) (compactText v)
  | .null => by
    rw [compactText]
    exact .null
  | .bool true => by
    rw [compactText]
    exact .isTrue
  | .bool false => by
    rw [compactText]
    exact .isFalse
  | .num n => by
    rw [compactText]
    exact .num n
  | .str s => by
    rw [compactText]
    exact .str (Quoted.stringText s)
  | .arr [] => by
    rw [compactText, Json.compactItems]
    exact .noItems Spaces.nil
  | .arr (v :: r) => by
    rw [compactText]
    exact .arr (Relaxed.compactItems (v :: r) (List.cons_ne_nil v r))
  | .obj [] => by
    rw [compactText, Json.compactMembers]
    exact .noMembers Spaces.nil
  | .obj (m :: r) => by
    rw [compactText]
    exact .obj (Relaxed.compactMembers (m :: r) (List.cons_ne_nil m r))

theorem Relaxed.compactItems : ∀ vs : List Json, vs ≠ [] →
    Relaxed (.items vs) (Json.compactItems vs)
  | [v], _ => by
    have h := Relaxed.lastItem Spaces.nil (Relaxed.compact v) Spaces.nil
    rw [List.nil_append, List.append_nil] at h
    rw [Json.compactItems]
    exact h
  | v :: w :: r, _ => by
    rw [Json.compactItems]
    exact .item Spaces.nil (Relaxed.compact v) Spaces.nil
      (Relaxed.compactItems (w :: r) (List.cons_ne_nil w r))

theorem Relaxed.compactMembers : ∀ ms : List (String × Json), ms ≠ [] →
    Relaxed (.members ms) (Json.compactMembers ms)
  | [(k, v)], _ => by
    have h := Relaxed.lastMember Spaces.nil (.quoted (Quoted.stringText k)) Spaces.nil Spaces.nil
      (Relaxed.compact v) Spaces.nil
    rw [List.append_nil] at h
    rw [Json.compactMembers]
    exact h
  | (k, v) :: m :: r, _ => by
    rw [Json.compactMembers]
    exact .member Spaces.nil (.quoted (Quoted.stringText k)) Spaces.nil Spaces.nil
      (Relaxed.compact v) Spaces.nil (Relaxed.compactMembers (m :: r) (List.cons_ne_nil m r))

end

/-! ## The spread form -/

theorem Spaces.indent (n : Nat) : Spaces (Json.indent n) := by
  intro c hc
  rcases List.mem_cons.mp hc with rfl | hc
  · rfl
  · rw [List.eq_of_mem_replicate hc]
    rfl

theorem Spaces.one : Spaces [' '] := fun c hc => by rw [List.mem_singleton.mp hc]; rfl

mutual

/-- A container at depth `n`. -/
theorem Relaxed.pretty : ∀ (n : Nat) (v : Json), Relaxed (.value v) (prettyText n v)
  | n, .null => by
    rw [prettyText]
    exact .null
  | n, .bool true => by
    rw [prettyText]
    exact .isTrue
  | n, .bool false => by
    rw [prettyText]
    exact .isFalse
  | n, .num k => by
    rw [prettyText]
    exact .num k
  | n, .str s => by
    rw [prettyText]
    exact .str (Quoted.stringText s)
  | n, .arr [] => by
    rw [prettyText]
    exact .noItems Spaces.nil
  | n, .arr (v :: r) => by
    rw [prettyText]
    exact .arr (Relaxed.prettyItems (n + 1) (Spaces.indent n) (v :: r) (List.cons_ne_nil v r))
  | n, .obj [] => by
    rw [prettyText]
    exact .noMembers Spaces.nil
  | n, .obj (m :: r) => by
    rw [prettyText]
    exact .obj (Relaxed.prettyMembers (n + 1) (Spaces.indent n) (m :: r) (List.cons_ne_nil m r))

/-- The elements, and the blanks in front of the closing bracket. -/
theorem Relaxed.prettyItems : ∀ (n : Nat) {w : List Char}, Spaces w → ∀ vs : List Json, vs ≠ [] →
    Relaxed (.items vs) (Json.prettyItems n vs ++ w)
  | n, w, hw, [v], _ => by
    rw [Json.prettyItems, List.append_assoc]
    exact .lastItem (Spaces.indent n) (Relaxed.pretty n v) hw
  | n, w, hw, v :: u :: r, _ => by
    rw [Json.prettyItems, List.append_assoc, List.append_assoc, List.cons_append]
    exact .item (Spaces.indent n) (Relaxed.pretty n v) Spaces.nil
      (Relaxed.prettyItems n hw (u :: r) (List.cons_ne_nil u r))

theorem Relaxed.prettyMembers : ∀ (n : Nat) {w : List Char}, Spaces w →
    ∀ ms : List (String × Json), ms ≠ [] → Relaxed (.members ms) (Json.prettyMembers n ms ++ w)
  | n, w, hw, [(k, v)], _ => by
    rw [Json.prettyMembers]
    simp only [List.append_assoc, List.cons_append]
    exact .lastMember (Spaces.indent n) (.quoted (Quoted.stringText k)) Spaces.nil Spaces.one
      (Relaxed.pretty n v) hw
  | n, w, hw, (k, v) :: m :: r, _ => by
    rw [Json.prettyMembers]
    simp only [List.append_assoc, List.cons_append]
    exact .member (Spaces.indent n) (.quoted (Quoted.stringText k)) Spaces.nil Spaces.one
      (Relaxed.pretty n v) Spaces.nil (Relaxed.prettyMembers n hw (m :: r) (List.cons_ne_nil m r))

end

/-! ## Reading what was printed -/

section Reading

variable {v : Json} (hv : IsContainer v) (hvalid : v.Valid) (hdepth : v.nesting < 128)
  (ambient : Ambient)
include hv hvalid hdepth

theorem ofText_compact :
    Argument.ofText ambient (compactText v) = .ok (Argument.ofJson v.reread) :=
  (Relaxed.compact v).ofText hv hvalid (Nat.le_of_lt_succ hdepth) ambient

theorem ofText_pretty (n : Nat) :
    Argument.ofText ambient (prettyText n v) = .ok (Argument.ofJson v.reread) :=
  (Relaxed.pretty n v).ofText hv hvalid (Nat.le_of_lt_succ hdepth) ambient

/-- **A relaxed literal means what its strict form means.**  Every relaxed way to write an array or
    object is accepted, and gives the argument that its compact JSON gives: the value itself, its
    members in their order. -/
theorem ofText_relaxed_eq_strict {t : List Char} (h : Relaxed (.value v) t) :
    Argument.ofText ambient t = .ok (Argument.ofJson v.reread) ∧
      Argument.ofText ambient (compactText v) = .ok (Argument.ofJson v.reread) :=
  ⟨h.ofText hv hvalid (Nat.le_of_lt_succ hdepth) ambient, ofText_compact hv hvalid hdepth ambient⟩

end Reading

/-- A bare key that is a reserved word, a string in single quotes with a quote of either kind in it,
    the absent value, and a comma behind the last element and member. -/
theorem ofText_relaxed_eq_strict_new :
    Argument.ofText ⟨0, fun _ => ⟨0⟩⟩ "\x7b new:['a\\'\"',undefined , ] , \"b\" : -2,\x7d".toList =
        .ok (Argument.ofJson (Json.reread
          (.obj [("new", .arr [.str "a'\"", .null]), ("b", .num (.int (-2)))]))) ∧
      Argument.ofText ⟨0, fun _ => ⟨0⟩⟩ (compactText
          (.obj [("new", .arr [.str "a'\"", .null]), ("b", .num (.int (-2)))])) =
        .ok (Argument.ofJson (Json.reread
          (.obj [("new", .arr [.str "a'\"", .null]), ("b", .num (.int (-2)))]))) := by
  have one : Spaces [' '] := Spaces.one
  have none : Spaces [] := Spaces.nil
  have string : Relaxed (.value (.str "a'\"")) "'a\\'\"'".toList :=
    .str (.single (.raw (by decide) (by decide) (by decide)
      (.quote (.raw (by decide) (by decide) (by decide) .nil))))
  have items : Relaxed (.items [.str "a'\"", .null]) "'a\\'\"',undefined , ".toList :=
    .item none string none (.lastItemComma none .undefined one one)
  have key : Key "b".toList "\"b\"".toList :=
    .quoted (.double (.raw (by decide) (by decide) (by decide) .nil))
  have members : Relaxed (.members [("new", .arr [.str "a'\"", .null]), ("b", .num (.int (-2)))])
      " new:['a\\'\"',undefined , ] , \"b\" : -2,".toList :=
    .member one (.bare (by decide) (List.all_eq_true.mp (by decide))) none none (.arr items) one
      (.lastMemberComma one key one one (.num (.int (-2))) none none)
  refine ofText_relaxed_eq_strict (v := .obj _) trivial ?_ (by decide) _ (.obj members)
  simp [Json.Valid, Json.ValidMembers, Json.ValidItems, Json.Number.Valid, Decimal.minInt64,
    Decimal.maxWord64]

end Polyshell.Mongo
