/-
  The handles of a pool, in and out.

  1. **The ledger** — a handle comes into the pool when a connection is opened, or when it is put in
     place of another; it leaves when it is handed back for another, or when it is passed on to be
     closed.  What came in and did not leave lies in a slot (`Reachable.balanced`), whatever comes
     between whatever.

  2. **Slots that were given up** — one that still holds a connection is about to lose it: the task
     that gave it up is just behind that (`Reachable.emptied`).

  Handles are counted by any property `q` of them, so one that a connector gives twice is counted
  twice.
-/
import Polyshell.Proofs.Pool.SingleConnection

namespace Polyshell.Pool

variable {H Q A α : Type}

/-! ## Coming in and going out -/

section Counts

variable (q : H → Bool)

/-- Whether a handle came into the pool. -/
def Event.brings : Event H Q → Bool
  | .opened _ _ h => q h
  | .replaced _ h _ => q h
  | _ => false

/-- Whether a handle was handed back for another. -/
def Event.handsBack : Event H Q → Bool
  | .replaced _ _ previous => q previous
  | _ => false

/-- Whether a handle was taken out of a slot that was given up. -/
def Event.takesOut : Event H Q → Bool
  | .evicted _ h => q h
  | _ => false

/-- Whether a handle was passed on to be closed. -/
def Event.closes : Event H Q → Bool
  | .closing h => q h
  | _ => false

/-- How many handles came into the pool. -/
def brought (history : History H Q) : Nat := history.countP fun x => x.2.brings q

/-- How many handles were handed back for others. -/
def handedBack (history : History H Q) : Nat := history.countP fun x => x.2.handsBack q

/-- How many handles were passed on to be closed. -/
def closings (history : History H Q) : Nat := history.countP fun x => x.2.closes q

/-- Whether a handle lies in a slot. -/
def liesIn (s : PoolSlot H) : Bool := s.entry.any fun e => q e.handle

/-- How many handles lie in slots. -/
def holding (p : Pool H) : Nat := p.slots.countP (liesIn q)

end Counts

section Slots

variable {q : H → Bool} {p : Pool H}

theorem slot_eq_getElem {i : Nat} (hi : i < p.slots.length) : p.slot i = p.slots[i] := by
  rw [slot, List.getElem?_eq_getElem hi]
  rfl

/-- A change of one slot, and what it does to the handles. -/
theorem holding_modify {i : Nat} (hi : i < p.slots.length) (f : PoolSlot H → PoolSlot H) :
    holding q (p.modify i f) + (if liesIn q (p.slot i) then 1 else 0) =
      holding q p + if liesIn q (f (p.slot i)) then 1 else 0 := by
  have hslots : p.slots = p.slots.take i ++ p.slots[i] :: p.slots.drop (i + 1) := by
    rw [← List.drop_eq_getElem_cons hi, List.take_append_drop]
  have hbefore : holding q p = (p.slots.take i).countP (liesIn q) +
      ((p.slots.drop (i + 1)).countP (liesIn q) + if liesIn q p.slots[i] then 1 else 0) := by
    rw [holding, ← List.countP_cons, ← List.countP_append, ← hslots]
  rw [hbefore, holding, modify, List.modify_eq_take_cons_drop hi, List.countP_append,
    List.countP_cons, slot_eq_getElem hi]
  omega

/-- A change that keeps the handle of a slot. -/
theorem holding_modify_same {i : Nat} (hi : i < p.slots.length) {f : PoolSlot H → PoolSlot H}
    (hf : liesIn q (f (p.slot i)) = liesIn q (p.slot i)) :
    holding q (p.modify i f) = holding q p := by
  have hcount := holding_modify (q := q) hi f
  rw [hf] at hcount
  omega

theorem holding_link {k : PoolKey} (hk : p.slotOf? k = none) :
    holding q (p.link k).2 = holding q p := by
  rw [link_of_none hk, holding, List.countP_append]
  rfl

end Slots

/-! ## One section -/

section Quiet

variable (q : H → Bool) {es : List (Event H Q)} (hes : ∀ e ∈ es, e.isQuiet = true)
include hes

/-- Quiet events bring nothing, hand nothing back and take nothing out. -/
theorem countP_of_quiet {f : Event H Q → Bool} (hf : ∀ e, e.isQuiet = true → f e = false) :
    es.countP f = 0 := by
  rw [List.countP_eq_zero]
  intro e he
  rw [hf e (hes e he)]
  exact Bool.false_ne_true

theorem countP_brings_of_quiet : es.countP (Event.brings q) = 0 :=
  countP_of_quiet hes fun e he => by cases e <;> first | rfl | cases he

theorem countP_handsBack_of_quiet : es.countP (Event.handsBack q) = 0 :=
  countP_of_quiet hes fun e he => by cases e <;> first | rfl | cases he

theorem countP_takesOut_of_quiet : es.countP (Event.takesOut q) = 0 :=
  countP_of_quiet hes fun e he => by cases e <;> first | rfl | cases he

end Quiet

/-- What a section brings into the pool, and what it takes out. -/
theorem Section.balance {owns : PoolKey → Nat → Prop} {now : Nat} {p p' : Pool H}
    {pt pt' : Point H} {es : List (Event H Q)} (hs : Section now p pt p' pt' es)
    (ho : Orderly owns p) (hf : pt.Fits owns p) (q : H → Bool) :
    holding q p + es.countP (Event.brings q) =
      holding q p' + es.countP (Event.handsBack q) + es.countP (Event.takesOut q) := by
  have hentry : ∀ {i e}, p.entryAt? i = e → liesIn q (p.slot i) = e.any fun e => q e.handle := by
    rintro i e rfl
    rfl
  have hstored : ∀ {k i h}, owns k i → holding q (p.store i h now) +
      (if liesIn q (p.slot i) then 1 else 0) = holding q p + if q h then 1 else 0 := fun hown =>
    holding_modify (ho.made _ _ hown) _
  cases hs with
  | quiet hs hl he =>
    rw [countP_brings_of_quiet q he, countP_handsBack_of_quiet q he, countP_takesOut_of_quiet q he,
      holding, holding, hs]
  | made hk => simp [holding_link hk, Event.brings, Event.handsBack, Event.takesOut]
  | @reused k i e hr he =>
    have hsame : holding q (p.touch i now) = holding q p := by
      refine holding_modify_same (ho.made k i hf) ?_
      rw [liesIn, Option.any_map]
      rfl
    simp [hsame, Event.brings, Event.handsBack, Event.takesOut]
  | @opened k i target attempt h =>
    obtain ⟨hown, -, he⟩ : Vacant owns p k i := hf
    have hcount := hstored (h := h) hown
    rw [hentry he] at hcount
    simp only [List.countP_cons, List.countP_nil, Event.brings, Event.handsBack, Event.takesOut,
      Bool.false_eq_true, if_false, Nat.add_zero, Nat.zero_add]
    exact hcount.symm
  | @replaced k i h e hr he =>
    have hcount := hstored (h := h) hf
    rw [hentry he] at hcount
    simp only [List.countP_cons, List.countP_nil, Event.brings, Event.handsBack, Event.takesOut,
      Bool.false_eq_true, if_false, Nat.add_zero, Nat.zero_add]
    exact hcount.symm
  | @retired k i r hr he =>
    have hsame : holding q (p.retire i) = holding q p := holding_modify_same (ho.made k i hf.1) rfl
    simp [hsame]
  | @evicted k i r e he =>
    have hcount : holding q ((p.unlink k i).clear i) + (if liesIn q (p.slot i) then 1 else 0) =
        holding q p + 0 := holding_modify (p := p.unlink k i) (ho.made k i hf.1) _
    rw [hentry he] at hcount
    simp only [List.countP_cons, List.countP_nil, Event.brings, Event.handsBack, Event.takesOut,
      Bool.false_eq_true, if_false, Nat.add_zero, Nat.zero_add]
    exact hcount.symm
  | @dropped k i r es he hes =>
    rw [countP_brings_of_quiet q hes, countP_handsBack_of_quiet q hes,
      countP_takesOut_of_quiet q hes]
    rfl

/-- A connection is passed on to be closed when it was taken out of its slot, and only then. -/
theorem Point.LeadsTo.eq_unlink {p : Pool H} {pt : Point H} {i : Nat} {h : H} {r : Round}
    (hl : pt.LeadsTo p (.close i h r)) :
    ∃ k e, pt = .unlink k i r ∧ p.entryAt? i = some e ∧ e.handle = h := by
  generalize hpt : Point.close i h r = pt' at hl
  have hnext : ∀ r' : Round, Point.close i h r ≠ r'.next := by
    intro r' hr
    rw [Round.next] at hr
    split at hr <;> cases hr
  cases hl with
  | @called c hc => cases c <;> cases hpt
  | surveyed => exact absurd hpt (hnext _)
  | passed hp => exact absurd hpt (hnext _)
  | dropped => exact absurd hpt (hnext _)
  | @evicted k j r' e he =>
    cases hpt
    exact ⟨k, e, rfl, he, rfl⟩
  | closed => exact absurd hpt (hnext _)
  | @surveyedAll rest live => cases rest <;> cases hpt
  | @counted j rest live live' => cases rest <;> cases hpt
  | _ => cases hpt

/-- What a section takes out of a slot it passes on to be closed. -/
theorem countP_closes (p : Pool H) {pt pt' : Point H} (hl : pt.LeadsTo p pt') (q : H → Bool) :
    (Concert.events p pt pt' : List (Event H Q)).countP (Event.closes q) =
      (Concert.events p pt pt' : List (Event H Q)).countP (Event.takesOut q) := by
  by_cases hc : ∃ i h r, pt' = .close i h r
  · obtain ⟨i, h, r, rfl⟩ := hc
    obtain ⟨k, e, rfl, -, rfl⟩ := hl.eq_unlink
    rfl
  · -- elsewhere neither the one is noted nor the other
    have hnone : ∀ e ∈ (Concert.events p pt pt' : List (Event H Q)),
        e.closes q = false ∧ e.takesOut q = false := by
      intro e he
      cases shows_of_mem_events he with
      | closing => exact absurd ⟨_, _, _, rfl⟩ hc
      | evicted => exact absurd ⟨_, _, _, rfl⟩ hc
      | _ => exact ⟨rfl, rfl⟩
    have hzero : ∀ f : Event H Q → Bool, (∀ e ∈ Concert.events p pt pt', f e = false) →
        (Concert.events p pt pt').countP f = 0 := fun f hf =>
      List.countP_eq_zero.mpr fun e he => by
        rw [hf e he]
        exact Bool.false_ne_true
    rw [hzero _ fun e he => (hnone e he).1, hzero _ fun e he => (hnone e he).2]

/-! ## Slots that were given up -/

/-- A slot that is given up and holds a connection behind a section was so before, or it was given up
    by this section. -/
theorem givenUp_advance {owns : PoolKey → Nat → Prop} {p : Pool H} (ho : Orderly owns p)
    {pt : Point H} (hf : pt.Fits owns p) (now : Nat) (got : Attempt H) {i : Nat}
    (hr : (p.advance now got pt).1.isRetired i = true)
    (he : (p.advance now got pt).1.entryAt? i ≠ none) :
    (p.isRetired i = true ∧ p.entryAt? i ≠ none ∧ ∀ k r, pt ≠ .unlink k i r) ∨
      ∃ k r, (p.advance now got pt).2 = .unlink k i r := by
  by_cases hunlink : ∃ k r, pt = .unlink k i r
  · -- the section takes out what is in the slot
    obtain ⟨k, r, rfl⟩ := hunlink
    refine absurd ?_ he
    rw [advance]
    split
    · exact Option.map_eq_none_iff.mp (handle?_clear (p.unlink k i) (ho.made k i hf.1))
    · next hnone => exact hnone
  · have hpt : ∀ k r, pt ≠ .unlink k i r := fun k r h => hunlink ⟨k, r, h⟩
    have hsame : (p.advance now got pt).1.slot i = p.slot i →
        p.isRetired i = true ∧ p.entryAt? i ≠ none ∧ ∀ k r, pt ≠ .unlink k i r := by
      intro hslot
      rw [isRetired, hslot] at hr
      rw [entryAt?, hslot] at he
      exact ⟨hr, he, hpt⟩
    -- a slot that is changed otherwise was not given up, and stays so
    have hactive : ∀ {k j} (f : PoolSlot H → PoolSlot H), owns k j → p.isRetired j = false →
        (p.modify j f).isRetired i = true → (∀ s, (f s).retired = s.retired) → j ≠ i := by
      rintro k j f hown hj hi hf rfl
      rw [isRetired, slot_modify p j f j (ho.made k j hown), if_pos rfl, hf] at hi
      rw [isRetired, hi] at hj
      cases hj
    have hsection := advance_section (Q := Unit) p now got pt
    generalize (p.advance now got pt).1 = p', (p.advance now got pt).2 = pt',
      Concert.events p pt (p.advance now got pt).2 = es at hsection hr he hsame ⊢
    cases hsection with
    | quiet hs hl hq => exact Or.inl (hsame (by rw [slot, slot, hs]))
    | @made k hk =>
      left
      refine hsame (slot_link p k ?_)
      have hi := lt_of_entryAt? he
      rw [link_of_none hk, List.length_append] at hi
      refine Nat.lt_of_le_of_ne (Nat.le_of_lt_succ hi) ?_
      rintro rfl
      rw [link_of_none hk, entryAt?, slot, List.getElem?_concat_length] at he
      exact he rfl
    | @reused k j e hj hentry =>
      exact Or.inl (hsame (slot_modify_of_ne p _ (hactive _ hf hj hr fun _ => rfl)))
    | @opened k j target n h =>
      exact Or.inl (hsame (slot_modify_of_ne p _ (hactive _ hf.1 hf.2.1 hr fun _ => rfl)))
    | @replaced k j h e hj hentry =>
      exact Or.inl (hsame (slot_modify_of_ne p _ (hactive _ hf hj hr fun _ => rfl)))
    | @retired k j r hj hevicts =>
      by_cases hji : j = i
      · subst hji
        exact Or.inr ⟨k, r, rfl⟩
      · exact Or.inl (hsame (slot_modify_of_ne p _ hji))
    | @evicted k j r e hentry =>
      exact Or.inl (hsame (slot_modify_of_ne (p.unlink k j) _ fun hji => hpt k r (hji ▸ rfl)))
    | dropped hentry hes => exact Or.inl (hsame rfl)

/-! ## All runs -/

theorem countP_noted (t : Nat) (es : List (Event H Q)) (history : History H Q)
    (f : Event H Q → Bool) : (noted t es history).countP (fun x => f x.2) =
      es.countP f + history.countP fun x => f x.2 := by
  rw [noted, List.countP_append, List.countP_map]
  rfl

namespace Concert

section Relisted

variable {m : Concert H Q A α} (h : m.Sound) (order : List (PoolKey × Nat))
include h

/-- The order of the table does not matter. -/
theorem Sound.orderly_relist : Orderly (Made m.history) (relist m.pool order) :=
  h.books.orderly.congr relist_slots relist_links

theorem Sound.fits_relist {t : Nat} {pt : Point H} (hpt : m.point? t = some pt) :
    pt.Fits (Made m.history) (relist m.pool order) :=
  (h.fits t pt hpt).frame (fun _ _ hm => hm) fun i _ => relist_slot i

end Relisted

/-- What came into the pool was handed back, or passed on to be closed, or lies in a slot. -/
theorem Reachable.balanced {settings : PoolSettings} {works : List (Session H Q A α)}
    {m : Concert H Q A α} (h : Reachable settings works m) (q : H → Bool) :
    brought q m.history =
      handedBack q m.history + closings q m.history + holding q m.pool := by
  refine h.induct (I := fun m => brought q m.history = handedBack q m.history +
    closings q m.history + holding q m.pool) rfl fun m mv m' hreach hm hs => ?_
  have hnoted : ∀ (p : Pool H) (es : List (Event H Q)),
      holding q m.pool + es.countP (Event.brings q) =
        holding q p + es.countP (Event.handsBack q) + es.countP (Event.closes q) →
      brought q (noted mv.task es m.history) = handedBack q (noted mv.task es m.history) +
        closings q (noted mv.task es m.history) + holding q p := by
    intro p es hes
    rw [brought, handedBack, closings] at hm ⊢
    rw [countP_noted, countP_noted, countP_noted]
    omega
  cases hs with
  | called ht => exact hnoted m.pool _ rfl
  | sent ht => exact hnoted m.pool _ rfl
  | returned ht => exact hnoted m.pool _ rfl
  | @ran pt next ht hfree =>
    have hsection := advance_section (Q := Q) (relist m.pool mv.order) mv.now mv.got pt
    have hbalance := hsection.balance (hreach.sound.orderly_relist mv.order)
      (hreach.sound.fits_relist mv.order (point?_of_calling ht)) q
    rw [← countP_closes _ (leadsTo_advance _ mv.now mv.got pt)] at hbalance
    have hrelist : holding q (relist m.pool mv.order) = holding q m.pool := by
      rw [holding, holding, relist_slots]
    rw [hrelist] at hbalance
    exact hnoted _ _ hbalance

/-- A slot that was given up and still holds a connection: the task that gave it up is about to take
    the connection out. -/
theorem Reachable.emptied {settings : PoolSettings} {works : List (Session H Q A α)}
    {m : Concert H Q A α} (h : Reachable settings works m) :
    ∀ i, m.pool.isRetired i = true → m.pool.entryAt? i ≠ none →
      ∃ t k r, m.point? t = some (.unlink k i r) := by
  refine h.induct (I := fun m => ∀ i, m.pool.isRetired i = true → m.pool.entryAt? i ≠ none →
    ∃ t k r, m.point? t = some (.unlink k i r)) ?_ fun m mv m' hreach hm hs i hr he => ?_
  · intro i hr he
    exact absurd rfl he
  · rcases hs.aside_or_ran with ⟨hpool, hkept, -⟩ | ⟨pt, next, rfl, ht, hfree⟩
    · rw [hpool] at hr he
      obtain ⟨t, k, r, hpt⟩ := hm i hr he
      rcases hkept t _ hpt with ⟨x, hdone⟩ | hpt
      · cases hdone
      · exact ⟨t, k, r, hpt⟩
    · have hpt := point?_of_calling ht
      have hpoint : ∀ t, (m.section? mv pt next).point? t = _ :=
        point?_section? m mv next (lt_of_point? hpt)
      rcases givenUp_advance (hreach.sound.orderly_relist mv.order)
        (hreach.sound.fits_relist mv.order hpt) mv.now mv.got hr he with ⟨hr, he, hne⟩ | ⟨k, r, hnew⟩
      · rw [relist_isRetired] at hr
        rw [relist_entryAt?] at he
        obtain ⟨t, k, r, hold⟩ := hm i hr he
        refine ⟨t, k, r, ?_⟩
        rw [hpoint, if_neg]
        · exact hold
        · rintro rfl
          rw [hpt] at hold
          exact hne k r (Option.some.inj hold)
      · exact ⟨mv.task, k, r, by rw [hpoint, if_pos rfl, hnew]⟩

end Concert

end Polyshell.Pool
