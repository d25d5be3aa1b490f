/-
  Slots and the table that says whose they are.

  1. **Ownership** — every slot is made for one key and never serves another.  The pool does not
     store whose a slot is; `owns k i` stands for it, whatever it is read off from.

  2. **The invariant** — `Orderly owns p`: the table has each key once and lists slots under their
     owners only; and a slot that was not given up, or that holds a connection, is in the table.

  3. **The sections** — each of the functions that a section is made of keeps this.  A change of one
     slot does so if it brings back no slot that was given up and puts no connection into one
     (`Orderly.modify`); a slot leaves the table only when it is given up and empty
     (`Orderly.unlink`).
-/
import Polyshell.Pool.Interleaving
import Mathlib.Data.List.Nodup

namespace Polyshell.Pool

variable {H : Type}

/-! ## Reading the state -/

/-- A slot that was not given up has been made. -/
theorem lt_of_not_isRetired {p : Pool H} {i : Nat} (h : p.isRetired i = false) :
    i < p.slots.length := by
  refine Nat.lt_of_not_le fun hle => ?_
  rw [isRetired, slot, List.getElem?_eq_none hle] at h
  cases h

/-- A slot that holds a connection has been made. -/
theorem lt_of_entryAt? {p : Pool H} {i : Nat} (h : p.entryAt? i ≠ none) : i < p.slots.length := by
  refine Nat.lt_of_not_le fun hle => ?_
  rw [entryAt?, slot, List.getElem?_eq_none hle] at h
  exact h rfl

/-- One slot is changed, and only that. -/
theorem slot_modify (p : Pool H) (i : Nat) (f : PoolSlot H → PoolSlot H) (j : Nat)
    (hj : j < p.slots.length) :
    (p.modify i f).slot j = if i = j then f (p.slot j) else p.slot j := by
  rw [slot, modify, List.getElem?_modify, slot, List.getElem?_eq_getElem hj]
  split <;> rfl

theorem slot_modify_of_ne (p : Pool H) {i j : Nat} (f : PoolSlot H → PoolSlot H) (h : i ≠ j) :
    (p.modify i f).slot j = p.slot j := by
  rw [slot, modify, List.getElem?_modify, slot]
  simp only [if_neg h, id_map']

theorem slot_link (p : Pool H) (k : PoolKey) {i : Nat} (hi : i < p.slots.length) :
    (p.link k).2.slot i = p.slot i := by
  rw [link]
  split
  · rfl
  · rw [slot, slot, List.getElem?_append_left hi]

theorem mem_of_slotOf? {p : Pool H} {k : PoolKey} {i : Nat} (h : p.slotOf? k = some i) :
    (k, i) ∈ p.links := by
  rw [slotOf?, Option.map_eq_some_iff] at h
  obtain ⟨⟨k', j⟩, hfind, rfl⟩ := h
  have hk : k' = k := by simpa using List.find?_some hfind
  rw [← hk]
  exact List.mem_of_find?_eq_some hfind

theorem not_mem_of_slotOf?_eq_none {p : Pool H} {k : PoolKey} (h : p.slotOf? k = none) (i : Nat) :
    (k, i) ∉ p.links := by
  intro hmem
  rw [slotOf?, Option.map_eq_none_iff, List.find?_eq_none] at h
  exact h (k, i) hmem (by simp)

theorem link_of_none {p : Pool H} {k : PoolKey} (h : p.slotOf? k = none) : p.link k =
    (p.slots.length,
      { p with slots := p.slots ++ [freshSlot], links := p.links ++ [(k, p.slots.length)] }) := by
  rw [link, h]

theorem link_of_some {p : Pool H} {k : PoolKey} {i : Nat} (h : p.slotOf? k = some i) :
    p.link k = (i, p) := by
  rw [link, h]

/-! ## The handle in a slot -/

/-- The handle in a slot. -/
def handle? (p : Pool H) (i : Nat) : Option H := (p.entryAt? i).map PoolEntry.handle

theorem handle?_of_slot {p p' : Pool H} {i : Nat} (h : p'.slot i = p.slot i) :
    p'.handle? i = p.handle? i := by
  rw [handle?, entryAt?, h, handle?, entryAt?]

theorem occupied_of_full {p : Pool H} {i : Nat} (h : p.handle? i ≠ none) : p.entryAt? i ≠ none := by
  intro he
  rw [handle?, he] at h
  exact h rfl

theorem occupied_of_handle? {p : Pool H} {i : Nat} {h : H} (hh : p.handle? i = some h) :
    p.entryAt? i ≠ none :=
  occupied_of_full (by rw [hh]; exact Option.some_ne_none h)

/-- A change of slots that keeps their handles. -/
theorem handle?_modify (p : Pool H) (i : Nat) (f : PoolSlot H → PoolSlot H)
    (hf : ∀ s, (f s).entry.map PoolEntry.handle = s.entry.map PoolEntry.handle) (j : Nat) :
    (p.modify i f).handle? j = p.handle? j := by
  rcases Nat.lt_or_ge j p.slots.length with hj | hj
  · rw [handle?, entryAt?, slot_modify p i f j hj]
    split
    · exact hf _
    · rfl
  · rw [handle?, entryAt?, slot, modify, List.getElem?_modify, List.getElem?_eq_none hj, handle?,
      entryAt?, slot, List.getElem?_eq_none hj]
    rfl

theorem handle?_touch (p : Pool H) (i now j : Nat) : (p.touch i now).handle? j = p.handle? j := by
  refine handle?_modify p i _ (fun s => ?_) j
  rw [Option.map_map]
  rfl

theorem handle?_retire (p : Pool H) (i j : Nat) : (p.retire i).handle? j = p.handle? j :=
  handle?_modify p i (fun s => { s with retired := true }) (fun _ => rfl) j

theorem handle?_store (p : Pool H) {i : Nat} (hi : i < p.slots.length) (h : H) (now : Nat) :
    (p.store i h now).handle? i = some h := by
  rw [handle?, entryAt?, store, slot_modify p i _ i hi, if_pos rfl]
  rfl

theorem handle?_clear (p : Pool H) {i : Nat} (hi : i < p.slots.length) :
    (p.clear i).handle? i = none := by
  rw [handle?, entryAt?, clear, slot_modify p i _ i hi, if_pos rfl]
  rfl

/-! ## The invariant -/

/-- What holds of a pool at every place where a task waits. -/
structure Orderly (owns : PoolKey → Nat → Prop) (p : Pool H) : Prop where
  /-- Only slots that were made have owners. -/
  made : ∀ k i, owns k i → i < p.slots.length
  owned : ∀ i, i < p.slots.length → ∃ k, owns k i
  unique : ∀ k k' i, owns k i → owns k' i → k = k'
  keys : (p.links.map Prod.fst).Nodup
  linked : ∀ k i, (k, i) ∈ p.links → owns k i
  /-- A slot that was not given up is in the table. -/
  active : ∀ k i, owns k i → p.isRetired i = false → (k, i) ∈ p.links
  /-- A slot with a connection is in the table. -/
  kept : ∀ k i, owns k i → p.entryAt? i ≠ none → (k, i) ∈ p.links

namespace Orderly

variable {owns : PoolKey → Nat → Prop} {p : Pool H}

theorem empty (settings : PoolSettings) (howns : ∀ k i, ¬ owns k i) :
    Orderly owns (Pool.empty settings : Pool H) where
  made := fun k i h => absurd h (howns k i)
  owned := fun _ h => absurd h (Nat.not_lt_zero _)
  unique := fun k _ i h => absurd h (howns k i)
  keys := List.nodup_nil
  linked := fun _ _ h => absurd h List.not_mem_nil
  active := fun k i h => absurd h (howns k i)
  kept := fun k i h => absurd h (howns k i)

/-- Each key has one slot in the table. -/
theorem eq_of_mem (h : Orderly owns p) {k : PoolKey} {i j : Nat} (hi : (k, i) ∈ p.links)
    (hj : (k, j) ∈ p.links) : i = j :=
  congrArg Prod.snd (List.inj_on_of_nodup_map h.keys hi hj rfl)

theorem slotOf?_eq_some (h : Orderly owns p) {k : PoolKey} {i : Nat} (hi : (k, i) ∈ p.links) :
    p.slotOf? k = some i := by
  cases hslot : p.slotOf? k with
  | none => exact absurd hi (not_mem_of_slotOf?_eq_none hslot i)
  | some j => rw [h.eq_of_mem hi (mem_of_slotOf? hslot)]

/-- What is neither in a slot nor in the table does not matter. -/
theorem congr (h : Orderly owns p) {p' : Pool H} (hs : p'.slots = p.slots)
    (hl : p'.links.Perm p.links) : Orderly owns p' := by
  have hslot : ∀ i, p'.slot i = p.slot i := fun i => by rw [slot, slot, hs]
  refine ⟨?_, ?_, h.unique, (hl.map Prod.fst).nodup_iff.mpr h.keys,
    fun k i hm => h.linked k i (hl.mem_iff.mp hm), ?_, ?_⟩
  · rw [hs]
    exact h.made
  · rw [hs]
    exact h.owned
  · intro k i hk hr
    rw [isRetired, hslot] at hr
    exact hl.mem_iff.mpr (h.active k i hk hr)
  · intro k i hk he
    rw [entryAt?, hslot] at he
    exact hl.mem_iff.mpr (h.kept k i hk he)

/-- A slot with a handle is the one in the table. -/
theorem eq_of_handle? (h : Orderly owns p) {k : PoolKey} {i j : Nat} (hi : (k, i) ∈ p.links)
    (ho : owns k j) {x : H} (hj : p.handle? j = some x) : j = i :=
  h.eq_of_mem (h.kept k j ho (occupied_of_handle? hj)) hi

/-- A new slot is in the table under its owner. -/
theorem link (h : Orderly owns p) {k : PoolKey} (hk : p.slotOf? k = none) :
    Orderly (fun k' i => owns k' i ∨ k' = k ∧ i = p.slots.length) (p.link k).2 := by
  have hold : ∀ k' i, owns k' i → (p.link k).2.slot i = p.slot i := fun k' i ho =>
    slot_link p k (h.made k' i ho)
  -- owned slots exist, so nobody owns the one that is about to be made
  have hfresh : ∀ k', ¬ owns k' p.slots.length := fun k' ho =>
    Nat.lt_irrefl _ (h.made k' _ ho)
  have hlength : (p.link k).2.slots.length = p.slots.length + 1 := by
    rw [link_of_none hk]
    exact List.length_append
  have hlinks : (p.link k).2.links = p.links ++ [(k, p.slots.length)] := by rw [link_of_none hk]
  constructor
  case made =>
    rw [hlength]
    rintro k' i (ho | ⟨-, rfl⟩)
    · exact Nat.lt_succ_of_lt (h.made k' i ho)
    · exact Nat.lt_succ_self _
  case owned =>
    rw [hlength]
    intro i hi
    rcases Nat.lt_succ_iff_lt_or_eq.mp hi with hi | hi
    · obtain ⟨k', ho⟩ := h.owned i hi
      exact ⟨k', Or.inl ho⟩
    · exact ⟨k, Or.inr ⟨rfl, hi⟩⟩
  case unique =>
    rintro k₁ k₂ i (ho₁ | ⟨rfl, rfl⟩) (ho₂ | ⟨rfl, hi⟩)
    · exact h.unique k₁ k₂ i ho₁ ho₂
    · exact absurd (hi ▸ ho₁) (hfresh k₁)
    · exact absurd ho₂ (hfresh k₂)
    · rfl
  -- the key was not listed, or its slot would have been found
  case keys =>
    rw [hlinks, List.map_append, List.nodup_append]
    refine ⟨h.keys, List.nodup_singleton _, ?_⟩
    intro k' hk' x hx hkx
    obtain ⟨⟨k'', i⟩, hmem, rfl⟩ := List.mem_map.mp hk'
    obtain rfl : k'' = k := hkx.trans (List.mem_singleton.mp hx)
    exact not_mem_of_slotOf?_eq_none hk i hmem
  case linked =>
    rw [hlinks]
    intro k' i hm
    rcases List.mem_append.mp hm with hm | hm
    · exact Or.inl (h.linked k' i hm)
    · obtain ⟨rfl, rfl⟩ := Prod.mk.inj (List.mem_singleton.mp hm)
      exact Or.inr ⟨rfl, rfl⟩
  case active =>
    rw [hlinks]
    rintro k' i (ho | ⟨rfl, rfl⟩) hr
    · rw [isRetired, hold k' i ho] at hr
      exact List.mem_append_left _ (h.active k' i ho hr)
    · exact List.mem_append_right _ List.mem_cons_self
  case kept =>
    rw [hlinks]
    rintro k' i (ho | ⟨rfl, rfl⟩) he
    · rw [entryAt?, hold k' i ho] at he
      exact List.mem_append_left _ (h.kept k' i ho he)
    · exact List.mem_append_right _ List.mem_cons_self

/-- A change of one slot that revives nothing and puts no connection where none may be. -/
theorem modify (h : Orderly owns p) (i : Nat) (f : PoolSlot H → PoolSlot H)
    (hr : (f (p.slot i)).retired = false → p.isRetired i = false)
    (he : (f (p.slot i)).entry ≠ none → p.entryAt? i ≠ none ∨ p.isRetired i = false) :
    Orderly owns (p.modify i f) := by
  have hlength : (p.modify i f).slots.length = p.slots.length := List.length_modify _ _ _
  refine ⟨?_, ?_, h.unique, h.keys, h.linked, ?_, ?_⟩
  · rw [hlength]
    exact h.made
  · rw [hlength]
    exact h.owned
  · intro k j ho hj
    rw [isRetired, slot_modify p i f j (h.made k j ho)] at hj
    split at hj
    · next hij => exact h.active k j ho (by subst hij; exact hr hj)
    · exact h.active k j ho hj
  · intro k j ho hj
    rw [entryAt?, slot_modify p i f j (h.made k j ho)] at hj
    split at hj
    · next hij =>
      subst hij
      rcases he hj with he | hr
      · exact h.kept k i ho he
      · exact h.active k i ho hr
    · exact h.kept k j ho hj

theorem touch (h : Orderly owns p) (i now : Nat) : Orderly owns (p.touch i now) := by
  refine h.modify i _ id fun he => Or.inl ?_
  intro hnone
  exact he (congrArg (Option.map _) hnone)

theorem store (h : Orderly owns p) {i : Nat} (hr : p.isRetired i = false) (x : H) (now : Nat) :
    Orderly owns (p.store i x now) :=
  h.modify i _ id fun _ => Or.inr hr

theorem retire (h : Orderly owns p) (i : Nat) : Orderly owns (p.retire i) :=
  h.modify i _ (fun hr => Bool.noConfusion hr) fun he => Or.inl he

theorem clear (h : Orderly owns p) (i : Nat) : Orderly owns (p.clear i) :=
  h.modify i _ id fun he => absurd rfl he

/-- A slot that was given up and is empty may leave the table. -/
theorem unlink (h : Orderly owns p) {i : Nat} (hr : p.isRetired i = true)
    (he : p.entryAt? i = none) (k : PoolKey) : Orderly owns (p.unlink k i) := by
  have hmem : ∀ k' j, j ≠ i → (k', j) ∈ p.links → (k', j) ∈ (p.unlink k i).links := by
    intro k' j hj hm
    exact List.mem_filter.mpr ⟨hm, by simp [hj]⟩
  refine ⟨h.made, h.owned, h.unique, ?_, ?_, ?_, ?_⟩
  · exact (List.filter_sublist.map Prod.fst).nodup h.keys
  · exact fun k' j hm => h.linked k' j (List.mem_filter.mp hm).1
  · intro k' j ho hj
    refine hmem k' j ?_ (h.active k' j ho hj)
    rintro rfl
    rw [show p.isRetired j = false from hj] at hr
    cases hr
  · intro k' j ho hj
    refine hmem k' j ?_ (h.kept k' j ho hj)
    rintro rfl
    exact hj he

end Orderly

end Polyshell.Pool
