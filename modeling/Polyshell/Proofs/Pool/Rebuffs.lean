/-
  Why an acquisition begins again.

  1. **Slots that are gone** — a slot that was given up leaves the table while its lock is kept
     (`Concert.Reachable.parting`).  Whoever has the lock and finds that the slot was given up can be
     sure that it is not in the table any more, and so it never will be again (`Gone.advance`).

  2. **Rebuffs** — an acquisition goes into a slot, finds that it was given up, and begins again.  Each
     slot that did this to a call is gone, so the table does not give it to the call a second time
     (`Gone.ne_link`).

  3. **Turns** — what one section does to the rebuffs of its call (`Rebuffed.ran`) holds of all runs, so
     a call looks up one slot, and one more for each slot that rebuffed it (`Reachable.deadlock_free`).
-/
import Polyshell.Proofs.Pool.Locking
import Polyshell.Proofs.Pool.Shutdown

namespace Polyshell.Pool

variable {H Q A α : Type}

/-! ## Slots that are gone -/

section Gone

variable {p : Pool H} {i : Nat}

/-- A slot that was given up and has left the table. -/
structure Gone (p : Pool H) (i : Nat) : Prop where
  made : i < p.slots.length
  retired : p.isRetired i = true
  unlisted : ∀ k, (k, i) ∉ p.links

theorem Gone.congr (h : Gone p i) {p' : Pool H} (hs : p'.slots = p.slots)
    (hl : ∀ x ∈ p'.links, x ∈ p.links) : Gone p' i := by
  refine ⟨?_, ?_, fun k hk => h.unlisted k (hl _ hk)⟩
  · rw [hs]
    exact h.made
  · rw [isRetired, slot, hs]
    exact h.retired

theorem Gone.modify (h : Gone p i) (j : Nat) {f : PoolSlot H → PoolSlot H}
    (hf : ∀ s, s.retired = true → (f s).retired = true) : Gone (p.modify j f) i := by
  refine ⟨?_, isRetired_modify h.retired j hf, h.unlisted⟩
  rw [Pool.modify, List.length_modify]
  exact h.made

/-- A slot that is gone does not come back. -/
theorem Gone.advance (h : Gone p i) (now : Nat) (got : Attempt H) (pt : Point H) :
    Gone (p.advance now got pt).1 i := by
  have hsection := advance_section (Q := Unit) p now got pt
  generalize (p.advance now got pt).1 = p', (p.advance now got pt).2 = pt',
    Concert.events p pt (p.advance now got pt).2 = es at hsection ⊢
  have hunlinked : ∀ k j, Gone (p.unlink k j) i := fun k j =>
    h.congr rfl fun x hx => (List.mem_filter.mp hx).1
  cases hsection with
  | quiet hs hl he => exact h.congr hs fun x hx => hl ▸ hx
  | @made k hk =>
    -- the table lists one slot more, with a number of its own
    rw [link_of_none hk]
    refine ⟨?_, ?_, fun k' hk' => ?_⟩
    · exact Nat.lt_of_lt_of_le h.made (by rw [List.length_append]; omega)
    · have hslot := slot_link p k h.made
      rw [link_of_none hk] at hslot
      rw [isRetired, hslot]
      exact h.retired
    · rcases List.mem_append.mp hk' with hold | hnew
      · exact h.unlisted k' hold
      · have hi : i = p.slots.length := (Prod.mk.inj (List.mem_singleton.mp hnew)).2
        exact absurd h.made (by omega)
  | reused hr he => exact h.modify _ fun _ hs => hs
  | opened => exact h.modify _ fun _ hs => hs
  | replaced hr he => exact h.modify _ fun _ hs => hs
  | retired hr he => exact h.modify _ fun _ _ => rfl
  | evicted he => exact (hunlinked _ _).modify _ fun _ hs => hs
  | dropped he hes => exact hunlinked _ _

/-- A slot that is gone is not looked up. -/
theorem Gone.ne_link (h : Gone p i) (k : PoolKey) : (p.link k).1 ≠ i := by
  cases hk : p.slotOf? k with
  | none =>
    rw [link_of_none hk]
    exact Nat.ne_of_gt h.made
  | some j =>
    rw [link_of_some hk]
    rintro rfl
    exact h.unlisted k (mem_of_slotOf? hk)

theorem isRetired_of_modify {j : Nat} {f : PoolSlot H → PoolSlot H}
    (h : (p.modify j f).isRetired i = true) (hf : ∀ s, (f s).retired = s.retired) :
    p.isRetired i = true := by
  by_contra hr
  have hi := lt_of_not_isRetired (Bool.eq_false_iff.mpr hr)
  rw [isRetired, slot_modify p j f i hi] at h
  split at h
  · exact hr ((hf _).symm.trans h)
  · exact hr h

/-- Where a slot comes from that is in the table and was given up: it was so before, or it was just
    given up. -/
theorem listed_advance {now : Nat} {got : Attempt H} {pt : Point H} {k : PoolKey}
    (hlisted : (k, i) ∈ (p.advance now got pt).1.links)
    (hr : (p.advance now got pt).1.isRetired i = true) :
    (k, i) ∈ p.links ∧ (p.isRetired i = true ∨
      ∃ k' r, pt = .visit k' i r ∧ (p.advance now got pt).2 = .unlink k' i r) := by
  have hsection := advance_section (Q := Unit) p now got pt
  generalize (p.advance now got pt).1 = p', (p.advance now got pt).2 = pt',
    Concert.events p pt (p.advance now got pt).2 = es at hsection hlisted hr ⊢
  cases hsection with
  | quiet hs hl he =>
    rw [hl] at hlisted
    rw [isRetired, slot, hs] at hr
    exact ⟨hlisted, Or.inl hr⟩
  | @made k' hk' =>
    rw [link_of_none hk'] at hlisted
    rcases List.mem_append.mp hlisted with hold | hnew
    · refine ⟨hold, Or.inl ?_⟩
      by_contra hactive
      have hi := lt_of_not_isRetired (Bool.eq_false_iff.mpr hactive)
      rw [isRetired, slot_link p k' hi] at hr
      exact hactive hr
    · -- a slot that was just made was not given up
      obtain ⟨-, rfl⟩ := Prod.mk.inj (List.mem_singleton.mp hnew)
      rw [link_of_none hk', isRetired, slot, List.getElem?_concat_length] at hr
      cases hr
  | reused hr' he => exact ⟨hlisted, Or.inl (isRetired_of_modify hr fun _ => rfl)⟩
  | opened => exact ⟨hlisted, Or.inl (isRetired_of_modify hr fun _ => rfl)⟩
  | replaced hr' he => exact ⟨hlisted, Or.inl (isRetired_of_modify hr fun _ => rfl)⟩
  | @retired k' j r hr' he =>
    refine ⟨hlisted, ?_⟩
    by_cases hj : j = i
    · subst hj
      exact Or.inr ⟨k', r, rfl, rfl⟩
    · rw [isRetired, retire, slot_modify_of_ne p _ hj] at hr
      exact Or.inl hr
  | evicted he =>
    exact ⟨(List.mem_filter.mp hlisted).1, Or.inl (isRetired_of_modify hr fun _ => rfl)⟩
  | dropped he hes => exact ⟨(List.mem_filter.mp hlisted).1, Or.inl hr⟩

/-- A slot that is taken out of the table is in it no more. -/
theorem not_listed_advance (now : Nat) (got : Attempt H) (k : PoolKey) (r : Round) :
    (k, i) ∉ (p.advance now got (.unlink k i r)).1.links := by
  have hunlinked : (k, i) ∉ (p.unlink k i).links := by
    intro hmem
    simpa using (List.mem_filter.mp hmem).2
  rw [Pool.advance]
  split
  · exact hunlinked
  · exact hunlinked

end Gone

namespace Concert

variable {settings : PoolSettings} {works : List (Session H Q A α)} {m m' : Concert H Q A α}

/-- A slot that was given up and is still in the table is about to be taken out of it. -/
theorem Reachable.parting (h : Reachable settings works m) : ∀ k i, (k, i) ∈ m.pool.links →
    m.pool.isRetired i = true → ∃ t r, m.point? t = some (.unlink k i r) := by
  refine h.induct (I := fun m => ∀ k i, (k, i) ∈ m.pool.links → m.pool.isRetired i = true →
    ∃ t r, m.point? t = some (.unlink k i r)) ?_ fun m mv m' hreach ih hs => ?_
  · intro k i hlisted
    cases hlisted
  · intro k i hlisted hr
    rcases hs.aside_or_ran with ⟨hpool, hstays, -⟩ | ⟨pt, next, rfl, ht, -⟩
    · rw [hpool] at hlisted hr
      obtain ⟨t, r, hpt⟩ := ih k i hlisted hr
      refine ⟨t, r, (hstays t _ hpt).resolve_left ?_⟩
      rintro ⟨result, hdone⟩
      cases hdone
    · have hpt := point?_of_calling ht
      obtain ⟨hold, hcases⟩ := listed_advance hlisted hr
      have hlinked := relist_links.mem_iff.mp hold
      rcases hcases with hretired | ⟨k', r, hvisit, hunlink⟩
      · rw [relist_isRetired] at hretired
        obtain ⟨t, r, hpt'⟩ := ih k i hlinked hretired
        refine ⟨t, r, ?_⟩
        rw [point?_section? m mv next (lt_of_point? hpt)]
        split
        · -- who was about to take it out has not moved: it is still there
          next hmoved =>
          subst hmoved
          obtain rfl : pt = .unlink k i r := Option.some.inj (hpt.symm.trans hpt')
          exact absurd hlisted (not_listed_advance mv.now mv.got k r)
        · exact hpt'
      · have hsound := hreach.sound
        have howns : Made m.history k' i := by
          have hfits := hsound.fits mv.task pt hpt
          rw [hvisit] at hfits
          exact hfits.1
        obtain rfl : k' = k := hsound.books.orderly.unique k' k i howns
          (hsound.books.orderly.linked k i hlinked)
        exact ⟨mv.task, r, (point?_section?_self hpt next).trans (congrArg some hunlink)⟩

theorem Stepped.gone {mv : Move H A} (hs : Stepped m mv m') {i : Nat} (h : Gone m.pool i) :
    Gone m'.pool i := by
  rcases hs.aside_or_ran with ⟨hpool, -, -⟩ | ⟨pt, next, rfl, -, -⟩
  · rwa [hpool]
  · exact (h.congr relist_slots fun x hx => relist_links.mem_iff.mp hx).advance mv.now mv.got pt

end Concert

/-! ## Rebuffs -/

namespace Passage

/-- The slot that a section found given up, so that its acquisition began again: it comes to the lookup
    of another, or learns that the pool was shut down. -/
def rebuff? (x : Passage H) : Option Nat :=
  match x.before, x.after with
  | .enter _ i, .link _ => some i
  | .enter _ i, .done (.handle (.error _)) => some i
  | _, _ => none

/-- Whether a section is the first of its call. -/
def begins (x : Passage H) : Bool :=
  match x.before with
  | .start _ => true
  | _ => false

variable {p : Pool H} {now : Nat} {got : Attempt H} {pt : Point H} {t i : Nat}

/-- Only a slot that was given up rebuffs. -/
theorem exists_of_rebuff (h : rebuff? ⟨t, pt, (p.advance now got pt).2⟩ = some i) :
    ∃ k, pt = .enter k i ∧ p.isRetired i = true := by
  cases pt with
  | enter k j =>
    rw [Pool.advance] at h
    cases hretired : p.isRetired j with
    | true =>
      rw [if_pos hretired, Pool.beginAcquire] at h
      have hslot : some j = some i := by
        split at h
        · exact h
        · exact h
      cases hslot
      exact ⟨k, rfl, hretired⟩
    | false =>
      rw [if_neg (Bool.eq_false_iff.mp hretired)] at h
      split at h
      · cases h
      · cases h
  | _ => cases h

/-- An acquisition looks a slot up at its beginning, and where it was rebuffed. -/
theorem begins_or_rebuff {k : PoolKey} (h : (p.advance now got pt).2 = .link k) :
    begins ⟨t, pt, .link k⟩ = true ∨ ∃ i, rebuff? ⟨t, pt, .link k⟩ = some i := by
  have hleads := leadsTo_advance p now got pt
  rw [h] at hleads
  generalize hpt : Point.link k = pt' at hleads
  cases hleads with
  | called hc => exact Or.inl rfl
  | again hopen => exact Or.inr ⟨_, rfl⟩
  | surveyed => exact absurd hpt.symm (Round.next_ne_link _ k)
  | passed hr => exact absurd hpt.symm (Round.next_ne_link _ k)
  | dropped => exact absurd hpt.symm (Round.next_ne_link _ k)
  | closed => exact absurd hpt.symm (Round.next_ne_link _ k)
  | @surveyedAll rest live => cases rest <;> cases hpt
  | @counted j rest live live' => cases rest <;> cases hpt
  | _ => cases hpt

/-- An acquisition goes into the slot that it has looked up. -/
theorem eq_link_of_enter {k : PoolKey} (h : (p.advance now got pt).2 = .enter k i) :
    pt = .link k ∧ i = (p.link k).1 := by
  have hleads := leadsTo_advance p now got pt
  rw [h] at hleads
  generalize hpt : Point.enter k i = pt' at hleads
  have hnext : ∀ r : Round, (r.next : Point H) ≠ .enter k i := by
    intro r hr
    rcases r.next_cases (H := H) with ⟨-, heq⟩ | ⟨k', j, rest, -, heq⟩
    · rw [heq] at hr
      cases hr
    · rw [heq] at hr
      cases hr
  cases hleads with
  | @called c hc => cases c <;> cases hpt
  | linked =>
    cases hpt
    cases h
    exact ⟨rfl, rfl⟩
  | surveyed => exact absurd hpt.symm (hnext _)
  | passed hr => exact absurd hpt.symm (hnext _)
  | dropped => exact absurd hpt.symm (hnext _)
  | closed => exact absurd hpt.symm (hnext _)
  | @surveyedAll rest live => cases rest <;> cases hpt
  | @counted j rest live live' => cases rest <;> cases hpt
  | _ => cases hpt

end Passage
/-- The sections of a task's call behind its first, the latest first; those of its last call, if it is in
    none. -/
def sinceBegun (t : Nat) (passages : List (Passage H)) : List (Passage H) :=
  (passages.filter fun x => x.task = t).takeWhile fun x => !x.begins

/-- The slots that rebuffed a task's call, the latest first. -/
def rebuffs (t : Nat) (passages : List (Passage H)) : List Nat :=
  (sinceBegun t passages).filterMap Passage.rebuff?

/-- How often a task's call has looked up a slot to go into. -/
def lookups (t : Nat) (passages : List (Passage H)) : Nat :=
  (sinceBegun t passages).countP fun x => x.before.looksUp

section Counting

variable {t : Nat} {x : Passage H} {passages : List (Passage H)}

theorem sinceBegun_of_ne (h : x.task ≠ t) : sinceBegun t (x :: passages) = sinceBegun t passages := by
  rw [sinceBegun, List.filter_cons_of_neg (by rwa [decide_eq_true_eq])]
  rfl

theorem sinceBegun_of_begins (hx : x.task = t) (h : x.begins = true) :
    sinceBegun t (x :: passages) = [] := by
  rw [sinceBegun, List.filter_cons_of_pos (by rwa [decide_eq_true_eq]), List.takeWhile_cons, h]
  rfl

theorem sinceBegun_cons (hx : x.task = t) (h : x.begins = false) :
    sinceBegun t (x :: passages) = x :: sinceBegun t passages := by
  rw [sinceBegun, List.filter_cons_of_pos (by rwa [decide_eq_true_eq]), List.takeWhile_cons, h]
  rfl

end Counting

/-! ## Turns -/

/-- What holds of the rebuffs of a call that stands at a point, if it stands anywhere. -/
structure Rebuffed (p : Pool H) (t : Nat) (passages : List (Passage H)) (pt : Option (Point H)) :
    Prop where
  distinct : (rebuffs t passages).Nodup
  gone : ∀ i ∈ rebuffs t passages, Gone p i
  /-- The slot that is gone into is another one. -/
  other : ∀ k i, pt = some (.enter k i) → i ∉ rebuffs t passages
  lookups_le : lookups t passages ≤ (rebuffs t passages).length + 1
  looks_up : ∀ k, pt = some (.link k) → lookups t passages ≤ (rebuffs t passages).length

/-- What a task does beside its sections, and what others do, leaves its call's rebuffs alone. -/
theorem Rebuffed.frame {p p' : Pool H} {t : Nat} {passages passages' : List (Passage H)}
    {pt pt' : Option (Point H)} (h : Rebuffed p t passages pt)
    (hsince : sinceBegun t passages' = sinceBegun t passages) (hgone : ∀ i, Gone p i → Gone p' i)
    (hpt : ∀ x, pt' = some x → pt = some x ∨ ∃ c, x = .start c) : Rebuffed p' t passages' pt' := by
  have hrebuffs : rebuffs t passages' = rebuffs t passages := by rw [rebuffs, hsince, rebuffs]
  have hlookups : lookups t passages' = lookups t passages := by rw [lookups, hsince, lookups]
  constructor
  case distinct =>
    rw [hrebuffs]
    exact h.distinct
  case gone =>
    rw [hrebuffs]
    exact fun i hi => hgone i (h.gone i hi)
  case other =>
    intro k i hpt'
    rw [hrebuffs]
    rcases hpt _ hpt' with hold | ⟨c, hstart⟩
    · exact h.other k i hold
    · cases hstart
  case lookups_le =>
    rw [hrebuffs, hlookups]
    exact h.lookups_le
  case looks_up =>
    intro k hpt'
    rw [hrebuffs, hlookups]
    rcases hpt _ hpt' with hold | ⟨c, hstart⟩
    · exact h.looks_up k hold
    · cases hstart

/-- A call that has run no section behind its first was not rebuffed. -/
theorem Rebuffed.of_nothing {t : Nat} {passages : List (Passage H)} (h : sinceBegun t passages = [])
    (p : Pool H) (pt : Option (Point H)) : Rebuffed p t passages pt := by
  have hnone : rebuffs t passages = [] := by
    rw [rebuffs, h]
    rfl
  have hzero : lookups t passages = 0 := by
    rw [lookups, h]
    rfl
  constructor
  · rw [hnone]
    exact List.nodup_nil
  · rw [hnone]
    exact fun i hi => absurd hi List.not_mem_nil
  · rw [hnone]
    exact fun _ _ _ => List.not_mem_nil
  · omega
  · intro k _
    omega

section Ran

variable {p : Pool H} {t : Nat} {passages : List (Passage H)} {pt : Point H} {now : Nat}
  {got : Attempt H}

/-- A section that finds its slot given up: that slot is gone, and it is not one of those before. -/
theorem Rebuffed.rebuffed (h : Rebuffed p t passages (some pt)) {i : Nat}
    (hrebuff : Passage.rebuff? ⟨t, pt, (p.advance now got pt).2⟩ = some i)
    (hgone : ∀ k i, pt = .enter k i → p.isRetired i = true → Gone p i) :
    Rebuffed (p.advance now got pt).1 t (⟨t, pt, (p.advance now got pt).2⟩ :: passages)
      (some (p.advance now got pt).2) := by
  obtain ⟨k, rfl, hretired⟩ := Passage.exists_of_rebuff hrebuff
  have hlater := @sinceBegun_cons H t ⟨t, .enter k i, (p.advance now got (.enter k i)).2⟩ passages rfl rfl
  have hrebuffs : rebuffs t (⟨t, .enter k i, (p.advance now got (.enter k i)).2⟩ :: passages) =
      i :: rebuffs t passages := by
    rw [rebuffs, hlater, List.filterMap_cons_some hrebuff]
    rfl
  have hlookups : lookups t (⟨t, .enter k i, (p.advance now got (.enter k i)).2⟩ :: passages) =
      lookups t passages := by
    rw [lookups, hlater]
    exact List.countP_cons_of_neg Bool.false_ne_true
  have hle := h.lookups_le
  constructor
  case distinct =>
    rw [hrebuffs]
    exact List.nodup_cons.mpr ⟨h.other k i rfl, h.distinct⟩
  case gone =>
    rw [hrebuffs]
    refine List.forall_mem_cons.mpr ⟨?_, fun j hj => (h.gone j hj).advance now got _⟩
    exact (hgone k i rfl hretired).advance now got _
  case other =>
    intro k' j hpt
    obtain ⟨hlink, -⟩ := Passage.eq_link_of_enter (Option.some.inj hpt)
    cases hlink
  case lookups_le =>
    rw [hrebuffs, hlookups, List.length_cons]
    omega
  case looks_up =>
    intro k' _
    rw [hrebuffs, hlookups, List.length_cons]
    omega

/-- A section of a call that neither begins nor is rebuffed.  If it looks a slot up, that is none of
    those that are gone. -/
theorem Rebuffed.went_on (h : Rebuffed p t passages (some pt))
    (hbegins : Passage.begins ⟨t, pt, (p.advance now got pt).2⟩ = false)
    (hrebuff : Passage.rebuff? ⟨t, pt, (p.advance now got pt).2⟩ = none) :
    Rebuffed (p.advance now got pt).1 t (⟨t, pt, (p.advance now got pt).2⟩ :: passages)
      (some (p.advance now got pt).2) := by
  have hlater := @sinceBegun_cons H t ⟨t, pt, (p.advance now got pt).2⟩ passages rfl hbegins
  have hrebuffs : rebuffs t (⟨t, pt, (p.advance now got pt).2⟩ :: passages) = rebuffs t passages := by
    rw [rebuffs, hlater, List.filterMap_cons_none hrebuff]
    rfl
  have hnot_link : ∀ k, (p.advance now got pt).2 ≠ .link k := by
    intro k hlink
    rw [hlink] at hbegins hrebuff
    rcases Passage.begins_or_rebuff (t := t) hlink with hb | ⟨i, hr⟩
    · rw [hbegins] at hb
      cases hb
    · rw [hrebuff] at hr
      cases hr
  constructor
  case distinct =>
    rw [hrebuffs]
    exact h.distinct
  case gone =>
    rw [hrebuffs]
    exact fun i hi => (h.gone i hi).advance now got pt
  case other =>
    intro k i hpt
    obtain ⟨-, rfl⟩ := Passage.eq_link_of_enter (Option.some.inj hpt)
    rw [hrebuffs]
    exact fun hi => (h.gone _ hi).ne_link k rfl
  case lookups_le =>
    rw [hrebuffs, lookups, hlater, List.countP_cons]
    show lookups t passages + _ ≤ _
    split
    · next hlooks =>
      have hpt : ∃ k, pt = .link k := by
        cases pt with
        | link k => exact ⟨k, rfl⟩
        | _ => cases hlooks
      obtain ⟨k, rfl⟩ := hpt
      exact Nat.add_le_add_right (h.looks_up k rfl) 1
    · exact h.lookups_le
  case looks_up =>
    intro k hpt
    exact absurd (Option.some.inj hpt) (hnot_link k)

theorem Rebuffed.ran (h : Rebuffed p t passages (some pt)) (now : Nat) (got : Attempt H)
    (hgone : ∀ k i, pt = .enter k i → p.isRetired i = true → Gone p i) :
    Rebuffed (p.advance now got pt).1 t (⟨t, pt, (p.advance now got pt).2⟩ :: passages)
      (some (p.advance now got pt).2) := by
  cases hbegins : Passage.begins ⟨t, pt, (p.advance now got pt).2⟩ with
  | true => exact .of_nothing (sinceBegun_of_begins rfl hbegins) _ _
  | false =>
    cases hrebuff : Passage.rebuff? ⟨t, pt, (p.advance now got pt).2⟩ with
    | some i => exact h.rebuffed hrebuff hgone
    | none => exact h.went_on hbegins hrebuff

end Ran

namespace Locking

variable {settings : PoolSettings} {works : List (Session H Q A α)} {m : Locking H Q A α}

/-- An acquisition that has the lock of its slot, and finds that it was given up, can be sure that it is
    gone: an eviction that had still to take it out of the table would have the lock. -/
theorem Reachable.gone (h : Reachable settings works m) {t i : Nat} {k : PoolKey}
    (hpt : m.concert.point? t = some (.enter k i)) (hhas : m.Has t (.slot i))
    (hr : m.concert.pool.isRetired i = true) : Gone m.concert.pool i := by
  have hsound := h.concert.sound
  refine ⟨hsound.books.orderly.made k i (hsound.fits t _ hpt), hr, fun k' hlisted => ?_⟩
  obtain ⟨t', r, hpt'⟩ := h.concert.parting k' i hlisted hr
  obtain rfl : t' = t := h.exclusive t' t (.slot i) (Or.inl (kept_of_point? hpt')) hhas
  cases hpt.symm.trans hpt'

/-- A step is an aside of a session, which is no section, or the section that it adds. -/
theorem passage_cases {c c' : Concert H Q A α} {mv : Move H A} (hs : Concert.Stepped c mv c') :
    (passage mv.task c c' = [] ∧
      ∀ t pt, c'.point? t = some pt → c.point? t = some pt ∨ ∃ call, pt = .start call) ∨
    ∃ pt next, c' = c.section? mv pt next ∧ c.point? mv.task = some pt ∧
      passage mv.task c c' = [⟨mv.task, pt, ((relist c.pool mv.order).advance mv.now mv.got pt).2⟩] := by
  have hput : ∀ {task : Task H Q A α} {es}, mv.task < c.tasks.length →
      (∀ pt, task.point? = some pt → ∃ call, pt = .start call) → ∀ t pt,
      (c.put mv.task task es).point? t = some pt → c.point? t = some pt ∨ ∃ call, pt = .start call := by
    intro task es hlt htask t pt hpt
    rw [Concert.point?_put _ hlt] at hpt
    split at hpt
    · exact Or.inr (htask pt hpt)
    · exact Or.inl hpt
  have hbetween : ∀ {d : Session H Q A α}, c.tasks[mv.task]? = some (.between d) →
      c.point? mv.task = none := by
    intro d ht
    rw [Concert.point?, ht]
    rfl
  have hlt : ∀ {task}, c.tasks[mv.task]? = some task → mv.task < c.tasks.length := fun ht =>
    (List.getElem?_eq_some_iff.mp ht).1
  cases hs with
  | @called call next ht =>
    refine Or.inl ⟨?_, hput (hlt ht) fun pt hpt => ⟨call, (Option.some.inj hpt).symm⟩⟩
    rw [passage, hbetween ht]
  | sent ht =>
    refine Or.inl ⟨?_, hput (hlt ht) fun pt hpt => by cases hpt⟩
    rw [passage, hbetween ht]
  | @returned r next ht =>
    refine Or.inl ⟨?_, hput (hlt ht) fun pt hpt => by cases hpt⟩
    rw [passage, Concert.point?_of_calling ht, Concert.point?_put _ (hlt ht), if_pos rfl]
    rfl
  | @ran pt next ht hfree =>
    have hpt := Concert.point?_of_calling ht
    refine Or.inr ⟨pt, next, rfl, hpt, ?_⟩
    rw [passage, hpt, Concert.point?_section?_self hpt]

/-- The rebuffs of every call. -/
theorem Reachable.rebuffed (h : Reachable settings works m) (t : Nat) :
    Rebuffed m.concert.pool t m.passages (m.concert.point? t) := by
  induction h with
  | start =>
    exact .of_nothing rfl _ _
  | @step m m' a h hs ih =>
    cases step?_eq_some_iff.mp hs with
    | took => exact ih
    | @went mv c hready hstep =>
      have hstepped := Concert.step?_stepped hstep
      rcases passage_cases hstepped with ⟨hnone, hpoint⟩ | ⟨pt, next, rfl, hpt, hpassage⟩
      · rw [hnone]
        exact ih.frame rfl (fun i hi => hstepped.gone hi) (hpoint t)
      · rw [hpassage]
        by_cases ht : mv.task = t
        · subst ht
          rw [Concert.point?_section?_self hpt]
          rw [hpt] at ih
          have hlisted : Rebuffed (relist m.concert.pool mv.order) mv.task m.passages (some pt) :=
            ih.frame rfl (fun i hi => hi.congr relist_slots fun x hx => relist_links.mem_iff.mp hx)
              fun x hx => Or.inl hx
          refine hlisted.ran mv.now mv.got fun k i hpt' hretired => ?_
          subst hpt'
          rw [relist_isRetired] at hretired
          have hwaits : Point.waits settings (.enter k i : Point H) = .lock (.slot i) := rfl
          have hawaits := awaits_of_waits hpt hwaits
          have hgone := h.gone hpt (Or.inr ⟨hready.granted hawaits, hawaits⟩) hretired
          exact hgone.congr relist_slots fun x hx => relist_links.mem_iff.mp hx
        · refine ih.frame (sinceBegun_of_ne ht) (fun i hi => hstepped.gone hi) fun x hx => Or.inl ?_
          rwa [Concert.point?_section? _ _ _ (Concert.lt_of_point? hpt), if_neg ht] at hx

/-- No calls wait for one another only: one that has not returned can go on, or waits for one that can.
    And an acquisition looks a slot up once, and once more at most for each slot that rebuffed it; these
    are all different, and all were given up. -/
theorem Reachable.deadlock_free (h : Reachable settings works m) :
    (∀ t pt, m.concert.point? t = some pt → ∃ t' pt', m.concert.point? t' = some pt' ∧
      Relation.ReflTransGen m.WaitsFor t t' ∧ m.CanGo t') ∧
    ∀ t, (rebuffs t m.passages).Nodup ∧
      (∀ i ∈ rebuffs t m.passages,
        i < m.concert.pool.slots.length ∧ m.concert.pool.isRetired i = true) ∧
      lookups t m.passages ≤ (rebuffs t m.passages).length + 1 := by
  refine ⟨fun t pt hpt => h.progress hpt, fun t => ?_⟩
  have hrebuffed := h.rebuffed t
  refine ⟨hrebuffed.distinct, fun i hi => ?_, hrebuffed.lookups_le⟩
  have hgone := hrebuffed.gone i hi
  exact ⟨hgone.made, hgone.retired⟩

/-- An acquisition has looked its slot up when a third task removes it.  It is rebuffed, and waits in the
    slot that a fourth task has made and is about to connect in. -/
theorem Reachable.deadlock_free_removed :
    ∃ (k : PoolKey) (m : Locking Nat Unit Unit (PoolResult Nat)),
      Reachable ⟨0, 0, 0, 1, 0⟩ [Session.call (.acquire k), Session.call (.acquire k),
        Session.call (.remove k), Session.call (.acquire k)] m ∧
      m.awaits? 1 = some (.slot 1) ∧ (∃ t' pt', m.concert.point? t' = some pt' ∧
        Relation.ReflTransGen m.WaitsFor 1 t' ∧ m.CanGo t') ∧
      rebuffs 1 m.passages = [0] ∧ m.concert.pool.isRetired 0 = true ∧ lookups 1 m.passages ≤ 2 := by
  let k : PoolKey := ⟨.keyValue, "localhost", 6379, none, none, none, none⟩
  let go (t : Nat) : Act Nat Unit := .go ⟨t, 0, .opened t, (), []⟩
  let locked (t : Nat) : List (Act Nat Unit) := [.take t, go t]
  let acts : List (Act Nat Unit) :=
    -- the first opens a connection, and the second finds its slot
    [go 0, go 0] ++ locked 0 ++ locked 0 ++ locked 0 ++ [go 0] ++ [go 1, go 1] ++ locked 1 ++
    -- the third gives it up, the fourth makes another, and the second comes to that one too
    [go 2, go 2] ++ locked 2 ++ locked 2 ++ locked 2 ++ locked 2 ++ [go 2] ++
    [go 3, go 3] ++ locked 3 ++ locked 3 ++ locked 1 ++ locked 1
  have hplay : ((Locking.start ⟨0, 0, 0, 1, 0⟩ [Session.call (.acquire k), Session.call (.acquire k),
      Session.call (.remove k), Session.call (.acquire k)]).play? acts).any (fun m =>
        decide (m.awaits? 1 = some (.slot 1) ∧ rebuffs 1 m.passages = [0]) :
          Locking Nat Unit Unit (PoolResult Nat) → Bool) = true := by decide +kernel
  obtain ⟨m, hrun, hstate⟩ := (Option.any_eq_true _ _).mp hplay
  obtain ⟨hawaits, hrebuffs⟩ := of_decide_eq_true hstate
  have hreach : Reachable _ _ m := Reachable.start.play? hrun
  obtain ⟨hgoes, hturns⟩ := hreach.deadlock_free
  obtain ⟨pt, hpt, -⟩ := exists_of_awaits hawaits
  obtain ⟨-, hretired, hlookups⟩ := hturns 1
  rw [hrebuffs] at hretired hlookups
  have hfirst := hretired 0 List.mem_cons_self
  exact ⟨k, m, hreach, hawaits, hgoes 1 pt hpt, hrebuffs, hfirst.2, hlookups⟩

end Locking

end Polyshell.Pool
