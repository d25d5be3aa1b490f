/-
  How deep the reader goes.

  The depth in `Strict d p t` is a limit and no more: a text that writes a value within one limit writes
  the same value within a larger one (`Strict.mono`), so what is read does not depend on the limit
  (`eq_of_readWithin`).  But it does limit what can be read: a value nests no deeper than that
  (`Strict.nesting_le`).

  Reading may drop members whose keys come twice, and containers with them.  Where no key does
  (`KeysOnce`), the value that is read nests as deep as the one that was printed
  (`nesting_reread`).
-/
import Polyshell.Proofs.Json.Exact
import Polyshell.Proofs.Json.Reread

namespace Polyshell.Json

/-! ## The limit -/

/-- A larger limit is as good. -/
theorem Strict.mono {d : Nat} {p : Part} {t : List Char} (h : Strict d p t) :
    ∀ {e : Nat}, d ≤ e → Strict e p t := by
  induction h with
  | null => exact fun _ => .null
  | isTrue => exact fun _ => .isTrue
  | isFalse => exact fun _ => .isFalse
  | num h => exact fun _ => .num h
  | str h => exact fun _ => .str h
  | noItems hw =>
    intro e he
    obtain ⟨e, rfl⟩ := Nat.exists_eq_succ_of_ne_zero (show e ≠ 0 by omega)
    exact .noItems hw
  | arr _ ih =>
    intro e he
    obtain ⟨e, rfl⟩ := Nat.exists_eq_succ_of_ne_zero (show e ≠ 0 by omega)
    exact .arr (ih (Nat.le_of_succ_le_succ he))
  | noMembers hw =>
    intro e he
    obtain ⟨e, rfl⟩ := Nat.exists_eq_succ_of_ne_zero (show e ≠ 0 by omega)
    exact .noMembers hw
  | obj _ ih =>
    intro e he
    obtain ⟨e, rfl⟩ := Nat.exists_eq_succ_of_ne_zero (show e ≠ 0 by omega)
    exact .obj (ih (Nat.le_of_succ_le_succ he))
  | lastItem hw _ hw' ih => exact fun he => .lastItem hw (ih he) hw'
  | item hw _ hw' _ ih ihs => exact fun he => .item hw (ih he) hw' (ihs he)
  | lastMember hw hk hw₁ hw₂ _ hw' ih => exact fun he => .lastMember hw hk hw₁ hw₂ (ih he) hw'
  | member hw hk hw₁ hw₂ _ hw' _ ih ihs =>
    exact fun he => .member hw hk hw₁ hw₂ (ih he) hw' (ihs he)

/-- What is read within one limit and within another is the same. -/
theorem eq_of_readWithin {d e : Nat} {text : List Char} {v u : Json}
    (h : readWithin d text = .ok v) (h' : readWithin e text = .ok u) : v = u := by
  have hmax : ∀ {c : Nat} {x : Json}, c ≤ max d e → readWithin c text = .ok x →
      readWithin (max d e) text = .ok x := by
    intro c x hc hx
    obtain ⟨w, t, w', ht, hw, hstrict, hw'⟩ := readWithin_eq_ok_iff.mp hx
    exact readWithin_eq_ok_iff.mpr ⟨w, t, w', ht, hw, hstrict.mono hc, hw'⟩
  have hv := hmax (Nat.le_max_left d e) h
  rw [hmax (Nat.le_max_right d e) h'] at hv
  exact (Except.ok.inj hv).symm

/-! ## Nesting -/

theorem nestingMembers_put_le (k : String) (v : Json) (ms : List (String × Json)) :
    nestingMembers (Members.put k v ms) ≤ max (nestingMembers ms) v.nesting := by
  induction ms with
  | nil =>
    show max v.nesting 0 ≤ max 0 v.nesting
    omega
  | cons m ms ih =>
    obtain ⟨l, u⟩ := m
    rw [Members.put_cons]
    split
    · rw [nestingMembers, nestingMembers]
      omega
    · rw [nestingMembers, nestingMembers]
      omega

/-- Members that come twice are dropped, so nothing gets deeper. -/
theorem nestingMembers_ofList_le (ms : List (String × Json)) :
    nestingMembers (Members.ofList ms) ≤ nestingMembers ms := by
  have hfold : ∀ acc : List (String × Json),
      nestingMembers (ms.foldl (fun acc m => Members.put m.1 m.2 acc) acc) ≤
        max (nestingMembers acc) (nestingMembers ms) := by
    induction ms with
    | nil => exact fun acc => Nat.le_max_left _ _
    | cons m ms ih =>
      intro acc
      have hput := nestingMembers_put_le m.1 m.2 acc
      have hrest := ih (Members.put m.1 m.2 acc)
      rw [List.foldl_cons, nestingMembers]
      omega
  have hempty := hfold []
  rw [nestingMembers, Nat.zero_max] at hempty
  exact hempty

/-- Nothing is written that nests deeper than the limit. -/
theorem Strict.nesting_le {d : Nat} {p : Part} {t : List Char} (h : Strict d p t) :
    p.nesting ≤ d := by
  induction h with
  | null | isTrue | isFalse | num | str => exact Nat.zero_le _
  | noItems | noMembers => exact Nat.succ_le_succ (Nat.zero_le _)
  | arr _ ih => exact Nat.succ_le_succ ih
  | obj _ ih => exact Nat.succ_le_succ (Nat.le_trans (nestingMembers_ofList_le _) ih)
  | lastItem _ _ _ ih => exact Nat.max_le.mpr ⟨ih, Nat.zero_le _⟩
  | item _ _ _ _ ih ihs => exact Nat.max_le.mpr ⟨ih, ihs⟩
  | lastMember _ _ _ _ _ _ ih => exact Nat.max_le.mpr ⟨ih, Nat.zero_le _⟩
  | member _ _ _ _ _ _ _ ih ihs => exact Nat.max_le.mpr ⟨ih, ihs⟩

theorem nesting_le_of_readWithin {d : Nat} {text : List Char} {v : Json}
    (h : readWithin d text = .ok v) : v.nesting ≤ d := by
  obtain ⟨w, t, w', -, -, hstrict, -⟩ := readWithin_eq_ok_iff.mp h
  exact hstrict.nesting_le

/-! ## Keys that come once -/

mutual

/-- No object in it has a key twice. -/
def KeysOnce : Json → Prop
  | .null => True
  | .bool _ => True
  | .num _ => True
  | .str _ => True
  | .arr items => KeysOnceItems items
  | .obj members => (members.map Prod.fst).Nodup ∧ KeysOnceMembers members

def KeysOnceItems : List Json → Prop
  | [] => True
  | v :: r => v.KeysOnce ∧ KeysOnceItems r

def KeysOnceMembers : List (String × Json) → Prop
  | [] => True
  | (_, v) :: r => v.KeysOnce ∧ KeysOnceMembers r

end

theorem keys_rereadMembers (ms : List (String × Json)) :
    (rereadMembers ms).map Prod.fst = ms.map Prod.fst := by
  induction ms with
  | nil => rw [rereadMembers]
  | cons m ms ih =>
    obtain ⟨k, v⟩ := m
    rw [rereadMembers, List.map_cons, List.map_cons, ih]

/-- An object whose keys come once keeps its members. -/
theorem reread_obj {ms : List (String × Json)} (h : (ms.map Prod.fst).Nodup) :
    (Json.obj ms).reread = .obj (rereadMembers ms) := by
  rw [reread, Members.ofList_of_nodup]
  rw [keys_rereadMembers]
  exact h

mutual

/-- Reading changes numbers, but not the containers around them. -/
theorem nesting_reread : ∀ v : Json, v.KeysOnce → v.reread.nesting = v.nesting
  | .null, _ => by rw [reread]
  | .bool _, _ => by rw [reread]
  | .num _, _ => by rw [reread, nesting, nesting]
  | .str _, _ => by rw [reread]
  | .arr items, h => by
    rw [KeysOnce] at h
    rw [reread, nesting, nesting, nestingItems_reread items h]
  | .obj members, h => by
    rw [KeysOnce] at h
    rw [reread_obj h.1, nesting, nesting, nestingMembers_reread members h.2]

theorem nestingItems_reread : ∀ items : List Json, KeysOnceItems items →
    nestingItems (rereadItems items) = nestingItems items
  | [], _ => by rw [rereadItems]
  | v :: r, h => by
    rw [KeysOnceItems] at h
    rw [rereadItems, nestingItems, nestingItems, nesting_reread v h.1, nestingItems_reread r h.2]

theorem nestingMembers_reread : ∀ members : List (String × Json), KeysOnceMembers members →
    nestingMembers (rereadMembers members) = nestingMembers members
  | [], _ => by rw [rereadMembers]
  | (k, v) :: r, h => by
    rw [KeysOnceMembers] at h
    rw [rereadMembers, nestingMembers, nestingMembers, nesting_reread v h.1,
      nestingMembers_reread r h.2]

end

end Polyshell.Json
