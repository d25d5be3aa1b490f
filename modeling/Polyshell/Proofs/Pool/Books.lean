/-
  The slots of a pool and its history agree.

  1. **Agreement** — `Cells`: the handle in the cell of a key, as the history has it, is the one in
     some slot of the key.  With an orderly table that slot is the one that the table lists, so
     there is no choice (`Cells.eq_of_linked`).

  2. **The books** — `Books history p`: slots and table are in order, the history is lawful, and the
     two agree.

  3. **One section** — whatever a section does keeps the books (`Books.of_section`): its events find what
     they presume, because the call stands in the slot that the table lists for its key.
-/
import Polyshell.Proofs.Pool.Sections

namespace Polyshell.Pool

variable {H Q : Type}

/-! ## Agreement of slots and cells -/

/-- The cell of a key holds what a slot of the key holds. -/
def Cells (owns : PoolKey → Nat → Prop) (p : Pool H) (cell : PoolKey → Option H) : Prop :=
  ∀ k h, cell k = some h ↔ ∃ i, owns k i ∧ p.handle? i = some h

namespace Cells

variable {owns : PoolKey → Nat → Prop} {p p' : Pool H} {cell : PoolKey → Option H}

theorem congr (h : Cells owns p cell) (hh : ∀ i, p'.handle? i = p.handle? i) :
    Cells owns p' cell := by
  intro k x
  rw [h k x]
  exact exists_congr fun i => by rw [hh i]

/-- The cell of a key whose slot is in the table holds what is in that slot. -/
theorem eq_of_linked (h : Cells owns p cell) (ho : Orderly owns p) {k : PoolKey} {i : Nat}
    (hi : (k, i) ∈ p.links) : cell k = p.handle? i := by
  refine Option.ext fun x => ?_
  rw [h k x]
  constructor
  · rintro ⟨j, hj, hx⟩
    rw [← ho.eq_of_handle? hi hj hx]
    exact hx
  · exact fun hx => ⟨i, ho.linked k i hi, hx⟩

/-- A new slot is empty. -/
theorem link (h : Cells owns p cell) (ho : Orderly owns p) {k : PoolKey} (hk : p.slotOf? k = none) :
    Cells (fun k' i => owns k' i ∨ k' = k ∧ i = p.slots.length) (p.link k).2 cell := by
  have hold : ∀ k' i, owns k' i → (p.link k).2.handle? i = p.handle? i := fun k' i hown =>
    handle?_of_slot (slot_link p k (ho.made k' i hown))
  have hfresh : (p.link k).2.handle? p.slots.length = none := by
    rw [link_of_none hk, handle?, entryAt?, slot, List.getElem?_concat_length]
    rfl
  intro k' x
  rw [h k' x]
  constructor
  · rintro ⟨i, hown, hx⟩
    exact ⟨i, Or.inl hown, by rw [hold k' i hown, hx]⟩
  · rintro ⟨i, hown | ⟨-, rfl⟩, hx⟩
    · exact ⟨i, hown, by rw [← hold k' i hown, hx]⟩
    · rw [hfresh] at hx
      cases hx

/-- What is put into the slot of a key is put into its cell. -/
theorem put (h : Cells owns p cell) (ho : Orderly owns p) {k : PoolKey} {i : Nat}
    (hi : (k, i) ∈ p.links) {x : Option H} (hx : p'.handle? i = x)
    (hother : ∀ j, j ≠ i → p'.handle? j = p.handle? j) :
    Cells owns p' fun k' => if k = k' then x else cell k' := by
  have hown := ho.linked k i hi
  intro k' y
  by_cases hk : k = k'
  · subst hk
    simp only [if_pos]
    constructor
    · rintro rfl
      exact ⟨i, hown, hx⟩
    · rintro ⟨j, hj, hy⟩
      by_cases hji : j = i
      · rw [← hx, ← hji, hy]
      · rw [hother j hji] at hy
        exact absurd (ho.eq_of_handle? hi hj hy) hji
  · simp only [if_neg hk]
    rw [h k' y]
    refine exists_congr fun j => and_congr_right fun hj => ?_
    -- the slot of another key is another slot
    have hji : j ≠ i := by
      rintro rfl
      exact hk (ho.unique k k' j hown hj)
    rw [hother j hji]

end Cells

/-! ## The books -/

/-- What holds of a pool and its history at every place where a task waits. -/
structure Books (history : History H Q) (p : Pool H) : Prop where
  orderly : Orderly (Made history) p
  lawful : Lawful history
  cells : Cells (Made history) p (current · history)

namespace Books

variable {history : History H Q} {p p' : Pool H}

/-- Events that make no slot leave it to show what became of slots and cells. -/
theorem of_noted {t : Nat} {es : List (Event H Q)} (hes : ∀ k i, .made k i ∉ es)
    (ho : Orderly (Made history) p') (hl : Lawful (noted t es history))
    (hc : Cells (Made history) p' (current · (noted t es history))) :
    Books (noted t es history) p' := by
  have hmade := made_noted_of_not_mem (t := t) hes history
  refine ⟨?_, hl, ?_⟩
  · rw [hmade]
    exact ho
  · rw [hmade]
    exact hc

/-- Nothing happened to slots and table, whose order does not matter. -/
theorem quiet (h : Books history p) (hs : p'.slots = p.slots) (hl : p'.links.Perm p.links) (t : Nat)
    {es : List (Event H Q)} (hes : ∀ e ∈ es, e.isQuiet = true) : Books (noted t es history) p' := by
  have hslot : ∀ i, p'.handle? i = p.handle? i := fun i =>
    handle?_of_slot (by rw [slot, slot, hs])
  refine of_noted (fun k i hm => ne_made_of_isQuiet (hes _ hm) k i rfl) (h.orderly.congr hs hl)
    (h.lawful.noted_quiet t hes) ?_
  simp only [current_noted_quiet t hes]
  exact h.cells.congr hslot

/-- A slot that was not given up holds what is in the cell of its key. -/
theorem current_eq (h : Books history p) {k : PoolKey} {i : Nat} (ho : Made history k i)
    (hr : p.isRetired i = false) {e : Option (PoolEntry H)} (he : p.entryAt? i = e) :
    current k history = e.map PoolEntry.handle := by
  rw [← he]
  exact h.cells.eq_of_linked h.orderly (h.orderly.active k i ho hr)

/-- A section keeps the books. -/
theorem of_section (h : Books history p) {now : Nat} {pt pt' : Point H} {es : List (Event H Q)}
    (hf : pt.Fits (Made history) p) (hsec : Section now p pt p' pt' es) (t : Nat) :
    Books (noted t es history) p' := by
  have hlength : ∀ {k i}, Made history k i → i < p.slots.length := fun ho => h.orderly.made _ _ ho
  cases hsec with
  | quiet hs hl he => exact h.quiet hs (hl ▸ List.Perm.refl _) t he
  | @made k hk =>
    have howns : Made (noted t [.made k p.slots.length] history) =
        fun k' i => Made history k' i ∨ k' = k ∧ i = p.slots.length := by
      funext k' i
      rw [made_noted, List.mem_singleton, Event.made.injEq, or_comm]
    refine ⟨?_, ⟨trivial, h.lawful⟩, ?_⟩
    · rw [howns]
      exact h.orderly.link hk
    · rw [howns]
      exact h.cells.link h.orderly hk
  | @reused k i e hr he =>
    have hcell : current k history = some e.handle := h.current_eq hf hr he
    exact of_noted (by simp) (h.orderly.touch i now) ⟨hcell, h.lawful⟩
      (h.cells.congr (handle?_touch p i now))
  | @opened k i target attempt x =>
    -- the slot was empty when the call began to connect, and its lock was not given back since
    obtain ⟨ho, hr, he⟩ : Vacant (Made history) p k i := hf
    have hcell : current k history = none := h.current_eq ho hr he
    refine of_noted (by simp) (h.orderly.store hr x now) ⟨if_pos rfl, hcell, h.lawful⟩ ?_
    exact h.cells.put h.orderly (h.orderly.active k i ho hr) (handle?_store p (hlength ho) x now)
      fun j hj => handle?_of_slot (slot_modify_of_ne p _ (Ne.symm hj))
  | @replaced k i x e hr he =>
    have hcell : current k history = some e.handle := h.current_eq hf hr he
    refine of_noted (by simp) (h.orderly.store hr x now) ⟨hcell, h.lawful⟩ ?_
    exact h.cells.put h.orderly (h.orderly.active k i hf hr) (handle?_store p (hlength hf) x now)
      fun j hj => handle?_of_slot (slot_modify_of_ne p _ (Ne.symm hj))
  | @retired k i r hr he =>
    exact ⟨h.orderly.retire i, h.lawful, h.cells.congr (handle?_retire p i)⟩
  | @evicted k i r e he =>
    -- the slot was given up, but nobody else takes it out of the table
    obtain ⟨ho, hr, -⟩ : Made history k i ∧ p.isRetired i = true ∧ _ := hf
    have hlinked : (k, i) ∈ p.links := h.orderly.kept k i ho (by rw [he]; exact Option.some_ne_none e)
    have hcell : current k history = some e.handle := by
      rw [h.cells.eq_of_linked h.orderly hlinked, handle?, he]
      rfl
    have hclear : (p.clear i).isRetired i = true ∧ (p.clear i).entryAt? i = none := by
      rw [isRetired, entryAt?, clear, slot_modify p i _ i (hlength ho), if_pos rfl]
      exact ⟨hr, rfl⟩
    refine of_noted (by simp) ((h.orderly.clear i).unlink hclear.1 hclear.2 k)
      ⟨trivial, hcell, h.lawful⟩ ?_
    exact h.cells.put h.orderly hlinked (handle?_clear p (hlength ho))
      fun j hj => handle?_of_slot (slot_modify_of_ne p _ (Ne.symm hj))
  | @dropped k i r es he hes =>
    obtain ⟨-, hr, -⟩ : Made history k i ∧ p.isRetired i = true ∧ _ := hf
    refine of_noted (fun k i hm => ne_made_of_isQuiet (hes _ hm) k i rfl)
      (h.orderly.unlink hr he k) (h.lawful.noted_quiet t hes) ?_
    simp only [current_noted_quiet t hes]
    exact h.cells

end Books

end Polyshell.Pool
