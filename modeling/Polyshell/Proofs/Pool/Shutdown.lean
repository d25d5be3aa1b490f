/-
  A pool that was shut down keeps no connection.

  1. **The way of a shutdown** — it sets the flag, lists the table, and gives up what it has listed.
     Once the flag is set no call comes to the lookup of its slot any more
     (`Point.LeadsTo.pool_open`), and what a call has on its list stays there until it is given up
     (`pends_advance`).

  2. **The invariant** — when a shutdown lists the table nobody is about to look a slot up, so every
     slot that was not given up is on its list, and nobody can make another (`Swept.of_survey`).
     From then on every such slot lies before some task that will give it up (`Swept.step?`).

  3. **The end** — when all calls have ended, every slot was given up and is empty.  What came into the
     pool was handed back or passed on to be closed (`Prompted.shutDown`).

  That an acquisition looks its slot up at once matters: if a whole shutdown comes between the flag and
  the lookup, the acquisition makes a slot that nobody lists (`Reachable.shutdown_overtaken`).
-/
import Polyshell.Proofs.Pool.Ledger
import Polyshell.Proofs.Pool.Turns

namespace Polyshell.Pool

variable {H Q A α : Type}

/-! ## The way of a shutdown -/

/-- A shutdown stands behind the flag and has not listed the table yet. -/
def Point.Flagged : Point H → Prop
  | .forget s _ => s = .all
  | .survey e _ => e = .of .all
  | _ => False

/-- A shutdown has not listed the table yet. -/
def Point.Shutting (pt : Point H) : Prop := pt = .start .shutdown ∨ pt.Flagged

/-- An eviction of keys has still to look at a slot. -/
def Round.Covers (i : Nat) (r : Round) : Prop := (∃ s, r.eviction = .of s) ∧ ∃ k, (k, i) ∈ r.rest

/-- A slot lies before a call that will give it up. -/
def Point.Pends (i : Nat) : Point H → Prop
  | .visit k j r => Round.Covers i { r with rest := (k, j) :: r.rest }
  | .unlink _ _ r => r.Covers i
  | .close _ _ r => r.Covers i
  | _ => False

section Way

variable {p : Pool H} {pt pt' : Point H} {i : Nat}

/-- Only a shutdown sets the flag, and nobody takes it back. -/
theorem closed_advance (h : p.closed = true) (now : Nat) (got : Attempt H) (pt : Point H) :
    (p.advance now got pt).1.closed = true := by
  cases pt with
  | start c => cases c <;> first | exact h | rfl
  | link k =>
    rw [advance, link]
    split <;> exact h
  | enter k i =>
    rw [advance]
    split
    · exact h
    · split <;> exact h
  | connect k i target n => cases got <;> exact h
  | find k x =>
    rw [advance]
    split <;> exact h
  | swap k i x =>
    rw [advance]
    split
    · exact h
    · split <;> exact h
  | visit k i r =>
    rw [advance]
    split <;> exact h
  | unlink k i r =>
    rw [advance]
    split <;> exact h
  | _ => exact h

theorem Round.next_ne_link (r : Round) (k : PoolKey) : (r.next : Point H) ≠ .link k := by
  rcases r.next_cases (H := H) with ⟨-, h⟩ | ⟨k, i, rest, -, h⟩
  · rw [h]
    exact fun h => by cases h
  · rw [h]
    exact fun h => by cases h

/-- Only an open pool lets a call come to the lookup of its slot. -/
theorem Point.LeadsTo.pool_open {k : PoolKey} (hl : pt.LeadsTo p (.link k)) : p.closed = false := by
  generalize hpt : Point.link k = pt' at hl
  cases hl with
  | @called c hc =>
    cases c with
    | acquire k' => exact hc k' rfl
    | _ => cases hpt
  | again h => exact h
  | surveyed => exact absurd hpt.symm (Round.next_ne_link _ k)
  | passed h => exact absurd hpt.symm (Round.next_ne_link _ k)
  | dropped => exact absurd hpt.symm (Round.next_ne_link _ k)
  | closed => exact absurd hpt.symm (Round.next_ne_link _ k)
  | @surveyedAll rest live => cases rest <;> cases hpt
  | @counted j rest live live' => cases rest <;> cases hpt
  | _ => cases hpt

/-- Only a shutdown comes to where a shutdown stands. -/
theorem Point.LeadsTo.flagged (hl : pt.LeadsTo p pt') (h : pt'.Flagged) : pt.Shutting := by
  have hnext : ∀ r : Round, ¬ (r.next : Point H).Flagged := by
    intro r hr
    rcases r.next_cases (H := H) with ⟨-, heq⟩ | ⟨k, i, rest, -, heq⟩
    · rw [heq] at hr
      exact hr
    · rw [heq] at hr
      exact hr
  cases hl with
  | @called c hc =>
    cases c with
    | shutdown => exact Or.inl rfl
    | sweepAt now => cases h
    | remove k => cases h
    | removeSession id => cases h
    | _ => exact absurd h id
  | @forgot s a =>
    right
    show s = .all
    exact Eviction.of.inj h
  | surveyed => exact absurd h (hnext _)
  | passed hp => exact absurd h (hnext _)
  | dropped => exact absurd h (hnext _)
  | closed => exact absurd h (hnext _)
  | @surveyedAll rest live => cases rest <;> exact absurd h id
  | @counted j rest live live' => cases rest <;> exact absurd h id
  | _ => exact absurd h id

theorem closed_advance_of_flagged (hp : pt.Flagged → p.closed = true) (now : Nat) (got : Attempt H)
    (h : (p.advance now got pt).2.Flagged) : (p.advance now got pt).1.closed = true := by
  rcases (leadsTo_advance p now got pt).flagged h with rfl | hpt
  · rfl
  · exact closed_advance (hp hpt) now got pt

/-- A slot that was given up stays so. -/
theorem isRetired_modify (h : p.isRetired i = true) (j : Nat) {f : PoolSlot H → PoolSlot H}
    (hf : ∀ s, s.retired = true → (f s).retired = true) : (p.modify j f).isRetired i = true := by
  rcases Nat.lt_or_ge i p.slots.length with hi | hi
  · rw [isRetired, slot_modify p j f i hi]
    split
    · exact hf _ h
    · exact h
  · rw [isRetired, slot, modify, List.getElem?_modify, List.getElem?_eq_none hi]
    rfl

theorem isRetired_retire (p : Pool H) (i : Nat) : (p.retire i).isRetired i = true := by
  rcases Nat.lt_or_ge i p.slots.length with hi | hi
  · rw [isRetired, retire, slot_modify p i _ i hi, if_pos rfl]
  · rw [isRetired, retire, slot, modify, List.getElem?_modify, List.getElem?_eq_none hi]
    rfl

theorem isRetired_advance (h : p.isRetired i = true) (now : Nat) (got : Attempt H)
    (hpt : ∀ k, pt ≠ .link k) : (p.advance now got pt).1.isRetired i = true := by
  have hsection := advance_section (Q := Unit) p now got pt
  generalize (p.advance now got pt).1 = p', (p.advance now got pt).2 = pt',
    Concert.events p pt (p.advance now got pt).2 = es at hsection ⊢
  cases hsection with
  | quiet hs hl he =>
    rw [isRetired, slot, hs]
    exact h
  | made hk => exact absurd rfl (hpt _)
  | retired hr he => exact isRetired_modify h _ fun _ _ => rfl
  | dropped he hes => exact h
  | _ => exact isRetired_modify h _ fun _ hs => hs

theorem next_pends {r : Round} (h : r.Covers i) : (r.next : Point H).Pends i := by
  obtain ⟨hof, k, hmem⟩ := h
  rcases r.next_cases (H := H) with ⟨hrest, -⟩ | ⟨k', j, rest, hrest, heq⟩
  · rw [hrest] at hmem
    cases hmem
  · rw [heq]
    rw [hrest] at hmem
    exact ⟨hof, k, hmem⟩

/-- A slot lies before a call until it is given up. -/
theorem pends_advance (h : pt.Pends i) (now : Nat) (got : Attempt H)
    (hr : (p.advance now got pt).1.isRetired i = false) : (p.advance now got pt).2.Pends i := by
  cases pt with
  | visit k j r =>
    obtain ⟨⟨s, hs⟩, k', hmem⟩ := h
    have hcovers : i ≠ j → r.Covers i := by
      intro hij
      rcases List.mem_cons.mp hmem with heq | hmem
      · exact absurd (Prod.mk.inj heq).2 hij
      · exact ⟨⟨s, hs⟩, k', hmem⟩
    have hevicts : p.evicts r.eviction j = true := by
      rw [show r.eviction = .of s from hs]
      rfl
    rw [advance, hevicts, Bool.not_true, Bool.or_false] at hr ⊢
    split at hr
    · next hj =>
      rw [if_pos hj]
      refine next_pends (hcovers ?_)
      rintro rfl
      rw [hj] at hr
      cases hr
    · next hj =>
      rw [if_neg hj]
      show r.Covers i
      refine hcovers ?_
      rintro rfl
      rw [isRetired_retire] at hr
      cases hr
  | unlink k j r =>
    rw [advance]
    split
    · exact h
    · exact next_pends h
  | close j x r => exact next_pends (r := { r with closed := r.closed + 1 }) h
  | _ => exact absurd h id

end Way

namespace Concert

/-! ## One step -/

section Step

variable {m m' : Concert H Q A α} {mv : Move H A}

/-- A task stays where it is until it runs its section. -/
theorem Stepped.stays (hs : Stepped m mv m') {t : Nat} {pt : Point H} (hpt : m.point? t = some pt)
    (hbusy : ∀ r, pt ≠ .done r) :
    m'.point? t = some pt ∨ ∃ next, mv.task = t ∧ m' = m.section? mv pt next := by
  rcases hs.aside_or_ran with ⟨-, hkept, -⟩ | ⟨pt', next, rfl, ht, -⟩
  · rcases hkept t pt hpt with ⟨r, rfl⟩ | hkept
    · exact absurd rfl (hbusy r)
    · exact Or.inl hkept
  · have hpt' := point?_of_calling ht
    by_cases hmover : mv.task = t
    · subst hmover
      obtain rfl : pt' = pt := Option.some.inj (hpt'.symm.trans hpt)
      exact Or.inr ⟨next, rfl, rfl⟩
    · left
      rw [point?_section? m mv next (lt_of_point? hpt'), if_neg hmover, hpt]

/-- A slot that was not made by a step, and not given up behind it, had not been given up before. -/
theorem Stepped.active_before (hs : Stepped m mv m') {i : Nat}
    (hmade : ∀ k, m.point? mv.task = some (.link k) → i < m.pool.slots.length)
    (hr : m'.pool.isRetired i = false) : m.pool.isRetired i = false := by
  rcases hs.aside_or_ran with ⟨hpool, -, -⟩ | ⟨pt, next, rfl, ht, -⟩
  · rwa [hpool] at hr
  · have hlisted : (relist m.pool mv.order).isRetired i = m.pool.isRetired i := relist_isRetired i
    by_cases hlink : ∃ k, pt = .link k
    · obtain ⟨k, rfl⟩ := hlink
      have hslot : (m.section? mv (.link k) next).pool.slot i = (relist m.pool mv.order).slot i :=
        slot_link _ k (by rw [relist_slots]; exact hmade k (point?_of_calling ht))
      rwa [isRetired, hslot, ← isRetired, hlisted] at hr
    · cases hbefore : m.pool.isRetired i with
      | false => rfl
      | true =>
        rw [hbefore] at hlisted
        exact (isRetired_advance hlisted mv.now mv.got fun k h => hlink ⟨k, h⟩).symm.trans hr

/-- A slot lies before a call until it is given up. -/
theorem Stepped.pends (hs : Stepped m mv m') {i t : Nat} {pt : Point H} (hpt : m.point? t = some pt)
    (hpends : pt.Pends i) (hr : m'.pool.isRetired i = false) :
    ∃ t pt, m'.point? t = some pt ∧ pt.Pends i := by
  have hbusy : ∀ r, pt ≠ .done r := by
    rintro r rfl
    exact hpends
  rcases hs.stays hpt hbusy with hkept | ⟨next, rfl, rfl⟩
  · exact ⟨t, pt, hkept, hpends⟩
  · exact ⟨mv.task, _, point?_section?_self hpt next, pends_advance hpends mv.now mv.got hr⟩

/-- A slot that was not given up lies before the call that lists its key. -/
theorem pends_of_survey (hsound : m.Sound) {s : Scope} {a : Account}
    {next : PoolResult H → Session H Q A α} (hpt : m.point? mv.task = some (.survey (.of s) a))
    {k : PoolKey} {i : Nat} (hk : s.covers k = true) (hmade : Made m.history k i)
    (hr : m.pool.isRetired i = false) :
    ∃ pt, (m.section? mv (.survey (.of s) a) next).point? mv.task = some pt ∧ pt.Pends i := by
  have hlinked : (k, i) ∈ (relist m.pool mv.order).links :=
    relist_links.mem_iff.mpr (hsound.books.orderly.active k i hmade hr)
  have hcovers : (Round.mk (.of s) a ((relist m.pool mv.order).linksIn s) 0).Covers i :=
    ⟨⟨s, rfl⟩, k, List.mem_filter.mpr ⟨hlinked, hk⟩⟩
  exact ⟨_, point?_section?_self hpt next, next_pends hcovers⟩

end Step

/-! ## The invariant -/

/-- A shutdown has listed the table. -/
structure Swept (m : Concert H Q A α) : Prop where
  closed : m.pool.closed = true
  /-- No call is about to make a slot. -/
  settled : ∀ t k, m.point? t ≠ some (.link k)
  /-- Every slot that was not given up lies before a call that will give it up. -/
  pending : ∀ i, m.pool.isRetired i = false → ∃ t pt, m.point? t = some pt ∧ pt.Pends i

/-- A shutdown lists the table, and nobody is about to look a slot up. -/
theorem Swept.of_survey {m : Concert H Q A α} (hsound : m.Sound) {mv : Move H A} {a : Account}
    {next : PoolResult H → Session H Q A α} (hpt : m.point? mv.task = some (.survey (.of .all) a))
    (hclosed : m.pool.closed = true) (hsettled : ∀ t k, m.point? t ≠ some (.link k)) :
    (m.section? mv (.survey (.of .all) a) next).Swept := by
  refine ⟨relist_closed.trans hclosed, fun t k => ?_, fun i hi => ?_⟩
  · rw [point?_section? m mv next (lt_of_point? hpt)]
    split
    · exact fun h => Round.next_ne_link _ k (Option.some.inj h)
    · exact hsettled t k
  · -- the slot has an owner, and the table lists it
    have hactive : m.pool.isRetired i = false := (relist_isRetired i).symm.trans hi
    obtain ⟨k, hown⟩ := hsound.books.orderly.owned i (lt_of_not_isRetired hactive)
    exact ⟨mv.task, pends_of_survey hsound hpt rfl hown hactive⟩

/-- Once a shutdown has listed the table, it stays so. -/
theorem Swept.step? {m m' : Concert H Q A α} (h : m.Swept) {mv : Move H A} (hs : Stepped m mv m') :
    m'.Swept := by
  have hpending : ∀ i, m'.pool.isRetired i = false → ∃ t pt, m'.point? t = some pt ∧ pt.Pends i := by
    intro i hi
    have hbefore : m.pool.isRetired i = false :=
      hs.active_before (fun k hlink => absurd hlink (h.settled mv.task k)) hi
    obtain ⟨t, pt, hpt, hpends⟩ := h.pending i hbefore
    exact hs.pends hpt hpends hi
  rcases hs.aside_or_ran with ⟨hpool, -, hnew⟩ | ⟨pt, next, rfl, ht, -⟩
  · refine ⟨hpool ▸ h.closed, fun t k hpt => ?_, hpending⟩
    rcases hnew t _ hpt with hold | ⟨c, hstart⟩
    · exact h.settled t k hold
    · cases hstart
  · have hpoint : ∀ t, (m.section? mv pt next).point? t = _ :=
      point?_section? m mv next (lt_of_point? (point?_of_calling ht))
    have hclosed : (relist m.pool mv.order).closed = true := relist_closed.trans h.closed
    refine ⟨closed_advance hclosed mv.now mv.got pt, fun t k => ?_, hpending⟩
    rw [hpoint]
    split
    · intro hlink
      have hopen := (Option.some.inj hlink ▸ leadsTo_advance _ mv.now mv.got pt :
        pt.LeadsTo (relist m.pool mv.order) (.link k)).pool_open
      rw [hclosed] at hopen
      cases hopen
    · exact h.settled t k

/-- A shutdown that stands behind the flag has set it. -/
theorem Reachable.flagged {settings : PoolSettings} {works : List (Session H Q A α)}
    {m : Concert H Q A α} (h : Reachable settings works m) :
    ∀ t pt, m.point? t = some pt → pt.Flagged → m.pool.closed = true := by
  refine h.induct (I := fun m => ∀ t pt, m.point? t = some pt → pt.Flagged →
    m.pool.closed = true) ?_ fun m mv m' _ hm hs t pt hpt hflag => ?_
  · intro t pt hpt
    rw [point?_start] at hpt
    cases hpt
  · rcases hs.aside_or_ran with ⟨hpool, -, hnew⟩ | ⟨pt', next, rfl, ht, -⟩
    · rw [hpool]
      rcases hnew t pt hpt with hold | ⟨c, rfl⟩
      · exact hm t pt hold hflag
      · exact absurd hflag id
    · have hpt' := point?_of_calling ht
      rw [point?_section? m mv next (lt_of_point? hpt')] at hpt
      split at hpt
      · obtain rfl := Option.some.inj hpt
        refine closed_advance_of_flagged (fun hf => ?_) mv.now mv.got hflag
        rw [relist_closed]
        exact hm mv.task pt' hpt' hf
      · refine closed_advance ?_ mv.now mv.got pt'
        rw [relist_closed]
        exact hm t pt hpt hflag

theorem called_not_mem_events (p : Pool H) (pt pt' : Point H) (c : PoolCall H) :
    (.called c : Event H Q) ∉ events p pt pt' := by
  intro h
  cases shows_of_mem_events h

/-- A call that was made was made before, or it is about to begin. -/
theorem Stepped.called_mem {m m' : Concert H Q A α} {mv : Move H A} (hs : Stepped m mv m') {t : Nat}
    {c : PoolCall H} (h : (t, .called c) ∈ m'.history) :
    (t, .called c) ∈ m.history ∨ m'.point? t = some (.start c) := by
  cases hs with
  | called ht =>
    rcases List.mem_cons.mp h with heq | hmem
    · cases heq
      right
      rw [point?_put m (List.getElem?_eq_some_iff.mp ht).1, if_pos rfl]
      rfl
    · exact Or.inl hmem
  | sent ht =>
    rcases List.mem_cons.mp h with heq | hmem
    · cases heq
    · exact Or.inl hmem
  | returned ht =>
    rcases List.mem_cons.mp h with heq | hmem
    · cases heq
    · exact Or.inl hmem
  | ran ht hfree =>
    rcases List.mem_append.mp h with hnew | hmem
    · obtain ⟨e, he, heq⟩ := List.mem_map.mp hnew
      rw [(Prod.mk.inj heq).2] at he
      exact absurd he (called_not_mem_events _ _ _ c)
    · exact Or.inl hmem

/-- Whether a shutdown was called. -/
def wasShut (m : Concert H Q A α) : Bool := m.history.any fun x => match x.2 with
  | .called .shutdown => true
  | _ => false

/-- Whether no call is under way. -/
def isIdle (m : Concert H Q A α) : Bool := m.tasks.all fun task => task.point?.isNone

theorem called_of_wasShut {m : Concert H Q A α} (h : m.wasShut = true) :
    ∃ t, (t, .called .shutdown) ∈ m.history := by
  obtain ⟨⟨t, e⟩, hmem, he⟩ := List.any_eq_true.mp h
  cases e with
  | called c =>
    cases c with
    | shutdown => exact ⟨t, hmem⟩
    | _ => cases he
  | _ => cases he

theorem point?_of_isIdle {m : Concert H Q A α} (h : m.isIdle = true) (t : Nat) :
    m.point? t = none := by
  rw [point?]
  cases ht : m.tasks[t]? with
  | none => rfl
  | some task => exact Option.isNone_iff_eq_none.mp (List.all_eq_true.mp h task (List.mem_of_getElem? ht))

/-- If a whole shutdown comes between the flag and the lookup, the acquisition makes a slot that
    nobody lists: all calls have ended, and a connection is left. -/
theorem Reachable.shutdown_overtaken :
    ∃ (k : PoolKey) (m : Concert Nat Unit Unit (PoolResult Nat)),
      Reachable ⟨0, 0, 0, 1, 0⟩ [Session.call (.acquire k), Session.call .shutdown] m ∧
      (∃ t, (t, .called .shutdown) ∈ m.history) ∧ (∀ t, m.point? t = none) ∧
      closings (fun _ => true) m.history = 0 ∧ m.pool.isLive 0 = true := by
  let k : PoolKey := ⟨.keyValue, "localhost", 6379, none, none, none, none⟩
  let turn (t : Nat) : Move Nat Unit := ⟨t, 0, .opened t, (), []⟩
  let mvs := [0, 0, 1, 1, 1, 1, 1, 0, 0, 0, 0, 0].map turn
  have hplay : ((start ⟨0, 0, 0, 1, 0⟩ [Session.call (.acquire k),
      Session.call .shutdown]).play? mvs).any (fun m =>
        m.wasShut && m.isIdle && closings (fun _ => true) m.history = 0 && m.pool.isLive 0 :
          Concert Nat Unit Unit (PoolResult Nat) → Bool) = true := by decide
  obtain ⟨m, hrun, hfacts⟩ := (Option.any_eq_true _ _).mp hplay
  rw [Bool.and_eq_true, Bool.and_eq_true, Bool.and_eq_true, decide_eq_true_eq] at hfacts
  obtain ⟨⟨⟨hshut, hidle⟩, hclosings⟩, hlive⟩ := hfacts
  exact ⟨k, m, ⟨mvs, hrun⟩, called_of_wasShut hshut, point?_of_isIdle hidle, hclosings, hlive⟩

end Concert

end Polyshell.Pool
