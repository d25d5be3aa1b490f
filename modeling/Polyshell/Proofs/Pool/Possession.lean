/-
  How long a task has the connection that it acquired.

  An acquisition leaves the connection of its key in a slot, and gives the lock of the slot back.  From
  then on other tasks may use the connection, put another one in its place, or evict it.  As long as
  nobody evicts it the slot stays full and stays the one of the key (`Held.step?`), so that whoever
  looks it up finds it (`Held.slotOf?`), and whoever has its lock finds it in use
  (`Held.isRetired`).  Once it was evicted that remains so (`Lost.step?`).
-/
import Polyshell.Proofs.Pool.Ledger

namespace Polyshell.Pool

variable {H Q A α : Type}

/-! ## Slots that are emptied -/

/-- Only an eviction empties a slot. -/
theorem evicted_of_emptied {owns : PoolKey → Nat → Prop} {p : Pool H} (ho : Orderly owns p)
    {pt : Point H} (hf : pt.Fits owns p) (now : Nat) (got : Attempt H) {i : Nat}
    (hfull : p.handle? i ≠ none) (hempty : (p.advance now got pt).1.handle? i = none) :
    ∃ k r x, pt = .unlink k i r ∧
      (.evicted k x : Event H Q) ∈ Concert.events p pt (p.advance now got pt).2 := by
  have hlt : i < p.slots.length := lt_of_entryAt? (occupied_of_full hfull)
  have hsame : (p.advance now got pt).1.slot i ≠ p.slot i := fun hslot => by
    rw [handle?_of_slot hslot] at hempty
    exact hfull hempty
  have hstored : ∀ {k j h}, owns k j → (p.store j h now).slot i ≠ p.slot i →
      (p.store j h now).handle? i = none → False := by
    intro k j h hown hslot hnone
    obtain rfl : j = i := by
      by_contra hne
      exact hslot (slot_modify_of_ne p _ hne)
    rw [handle?_store p (ho.made k j hown)] at hnone
    cases hnone
  have hsection := advance_section (Q := Q) p now got pt
  generalize (p.advance now got pt).1 = p', (p.advance now got pt).2 = pt',
    Concert.events p pt (p.advance now got pt).2 = es at hsection hempty hsame ⊢
  cases hsection with
  | quiet hs hl he => exact absurd (by rw [slot, slot, hs]) hsame
  | made hk => exact absurd (slot_link p _ hlt) hsame
  | reused hr he =>
    rw [handle?_touch] at hempty
    exact absurd hempty hfull
  | opened => exact (hstored hf.1 hsame hempty).elim
  | replaced hr he => exact (hstored hf hsame hempty).elim
  | retired hr he =>
    rw [handle?_retire] at hempty
    exact absurd hempty hfull
  | @evicted k j r e he =>
    obtain rfl : j = i := by
      by_contra hne
      exact hsame (slot_modify_of_ne (p.unlink k j) _ hne)
    exact ⟨k, r, e.handle, rfl, List.mem_cons_of_mem _ List.mem_cons_self⟩
  | dropped he hes => exact absurd rfl hsame

namespace Concert

/-! ## Held and lost -/

/-- A task has acquired the connection of a key, and a slot of the key is full. -/
structure Held (m : Concert H Q A α) (t : Nat) (k : PoolKey) (i : Nat) : Prop where
  made : Made m.history k i
  full : m.pool.handle? i ≠ none
  acquired : ∃ x, (t, .acquired k x) ∈ m.history

theorem Held.occupied {m : Concert H Q A α} {t i : Nat} {k : PoolKey} (h : m.Held t k i) :
    m.pool.entryAt? i ≠ none := occupied_of_full h.full

/-- A task has acquired the connection of a key, and since then it was evicted. -/
def Lost (m : Concert H Q A α) (t : Nat) (k : PoolKey) : Prop :=
  ∃ since x before, m.history = since ++ (t, .acquired k x) :: before ∧
    ∃ t' y, (t', .evicted k y) ∈ since

/-- A task has acquired the connection of a key, and it was evicted since or is held still. -/
def Had (m : Concert H Q A α) (t : Nat) (k : PoolKey) : Prop := m.Lost t k ∨ ∃ i, m.Held t k i

section Step

variable {settings : PoolSettings} {works : List (Session H Q A α)} {m m' : Concert H Q A α}
  {mv : Move H A} {t i : Nat} {k : PoolKey}

theorem Lost.step? (h : m.Lost t k) (hs : Stepped m mv m') : m'.Lost t k := by
  obtain ⟨since, x, before, hsplit, t', y, hevicted⟩ := h
  obtain ⟨es, hhistory, -⟩ := hs.history
  refine ⟨noted mv.task es since, x, before, ?_, t', y, List.mem_append_right _ hevicted⟩
  rw [hhistory, noted, noted, hsplit, List.append_assoc]

/-- What is held stays so until it is evicted. -/
theorem Held.step? (h : m.Held t k i) (hsound : m.Sound) (hs : Stepped m mv m') :
    m'.Held t k i ∨ m'.Lost t k := by
  obtain ⟨es, hhistory, -⟩ := hs.history
  obtain ⟨x, hacquired⟩ := h.acquired
  have hkept : m'.pool.handle? i ≠ none → m'.Held t k i := by
    refine fun hfull => ⟨?_, hfull, x, ?_⟩
    · rw [hhistory]
      exact made_noted.mpr (Or.inr h.made)
    · rw [hhistory]
      exact mem_noted.mpr (Or.inr hacquired)
  rcases hs.cases with ⟨task, e, rfl, -⟩ | ⟨pt, next, rfl, hpt, -⟩
  · exact Or.inl (hkept h.full)
  · have ho := hsound.orderly_relist mv.order
    have hfits := hsound.fits_relist mv.order hpt
    by_cases hempty : (m.section? mv pt next).pool.handle? i = none
    · have hfull : (relist m.pool mv.order).handle? i ≠ none := by
        rw [handle?_of_slot (relist_slot i)]
        exact h.full
      obtain ⟨k', r, y, rfl, hevicted⟩ := evicted_of_emptied (Q := Q) ho hfits mv.now mv.got hfull hempty
      obtain rfl := ho.unique k' k i hfits.1 h.made
      -- the slot belongs to the key, so it is the key's connection that was evicted
      obtain ⟨since, before, hsplit⟩ := List.append_of_mem hacquired
      right
      refine ⟨noted mv.task (events (relist m.pool mv.order) (.unlink k' i r) _) since, x, before, ?_,
        mv.task, y, mem_noted.mpr (Or.inl ⟨rfl, hevicted⟩)⟩
      show noted mv.task _ m.history = _
      rw [hsplit, noted, noted, List.append_assoc]
    · exact Or.inl (hkept hempty)

theorem Had.step? (h : m.Had t k) (hsound : m.Sound) (hs : Stepped m mv m') : m'.Had t k := by
  rcases h with hlost | ⟨i, hheld⟩
  · exact Or.inl (hlost.step? hs)
  · rcases hheld.step? hsound hs with hheld | hlost
    · exact Or.inr ⟨i, hheld⟩
    · exact Or.inl hlost

/-- An acquisition leaves its task with a slot that is full. -/
theorem Held.of_acquisition (hsound : m.Sound) {pt : Point H} {next : PoolResult H → Session H Q A α}
    (hpt : m.point? mv.task = some pt) (hserves : pt.Serves (.acquire k)) (hbusy : ∀ r, pt ≠ .done r)
    {x : H} (hdone : ((relist m.pool mv.order).advance mv.now mv.got pt).2 =
      .done (.handle (.ok x))) : ∃ i, (m.section? mv pt next).Held mv.task k i := by
  have ho := hsound.orderly_relist mv.order
  have hfits := hsound.fits_relist mv.order hpt
  have hheld : ∀ {i}, Made m.history k i →
      ((relist m.pool mv.order).advance mv.now mv.got pt).1.handle? i ≠ none →
      (.acquired k x : Event H Q) ∈ events (relist m.pool mv.order) pt
        ((relist m.pool mv.order).advance mv.now mv.got pt).2 →
      (m.section? mv pt next).Held mv.task k i := fun hmade hfull hacquired =>
    ⟨made_noted.mpr (Or.inr hmade), hfull, x, mem_noted.mpr (Or.inl ⟨rfl, hacquired⟩)⟩
  rcases acquisition_cases hserves hdone with
    hended | ⟨i, e, rfl, hr, he, rfl⟩ | ⟨i, target, attempt, rfl, hgot⟩
  · exact absurd hended (hbusy _)
  · refine ⟨i, hheld hfits ?_ (by rw [hdone]; exact List.mem_cons_self)⟩
    rw [advance, hr, if_neg Bool.false_ne_true, he]
    dsimp only
    rw [handle?_touch, handle?, he]
    exact Option.some_ne_none _
  · refine ⟨i, hheld hfits.1 ?_ (by rw [hdone]; exact List.mem_cons_self)⟩
    rw [hgot, advance]
    dsimp only
    rw [handle?_store _ (ho.made k i hfits.1)]
    exact Option.some_ne_none _

end Step

section Lookup

variable {settings : PoolSettings} {works : List (Session H Q A α)} {m : Concert H Q A α}
  {t i : Nat} {k : PoolKey}

/-- The slot that is held is the one that the table lists. -/
theorem Held.slotOf? (h : m.Held t k i) (hsound : m.Sound) (order : List (PoolKey × Nat)) :
    (relist m.pool order).slotOf? k = some i := by
  have hkept : (k, i) ∈ m.pool.links := hsound.books.orderly.kept k i h.made h.occupied
  exact (hsound.orderly_relist order).slotOf?_eq_some (relist_links.mem_iff.mpr hkept)

/-- Who has the lock of a slot that is held finds it in use. -/
theorem Held.isRetired (h : m.Held t k i) (hreach : Reachable settings works m) {t' : Nat}
    {pt : Point H} (hpt : m.point? t' = some pt) (hnot : pt.holds = none)
    (hfree : m.keeps t' (.slot i) = false) : m.pool.isRetired i = false := by
  cases hr : m.pool.isRetired i with
  | false => rfl
  | true =>
    -- who gave the slot up has its lock until it is empty
    obtain ⟨t'', k', r, hunlink⟩ := hreach.emptied i hr h.occupied
    have hne : t'' ≠ t' := by
      rintro rfl
      rw [hpt] at hunlink
      cases hunlink
      cases hnot
    exact absurd rfl (holds_ne_of_keeps hfree hne hunlink)

end Lookup

end Concert

end Polyshell.Pool
