/-
  What a section of a pool call can do.

  1. **Inversion** — `Section` lists all changes that a section makes to slots and table, with what
     is noted about each; `advance_section` says that there are no others.  Whoever proves an
     invariant goes through that list, and not through the calls.

  2. **Knowledge** — a call that stands between two sections relies on what it has seen
     (`Point.Fits`): the slots that it remembers are its key's, and the one whose lock it keeps is
     as it found it.  A section leaves its call with what the next one relies on (`fits_advance`).

  3. **Frames** — a section changes no slot but the one whose lock it runs under (`slot_advance`), so
     what another call relies on stays true (`Point.Fits.frame`).
-/
import Polyshell.Proofs.Pool.History
import Polyshell.Proofs.Pool.Slots

namespace Polyshell.Pool

variable {H Q : Type}

/-! ## Inversion -/

/-- The changes of a section: from a pool and a point to a pool and a point, and what is noted. -/
inductive Section (now : Nat) (p : Pool H) :
    Point H → Pool H → Point H → List (Event H Q) → Prop
  /-- Neither slots nor table change. -/
  | quiet {pt p' pt' es} (hs : p'.slots = p.slots) (hl : p'.links = p.links)
      (he : ∀ e ∈ es, e.isQuiet = true) : Section now p pt p' pt' es
  | made {k} (h : p.slotOf? k = none) :
      Section now p (.link k) (p.link k).2 (.enter k p.slots.length) [.made k p.slots.length]
  | reused {k i e} (hr : p.isRetired i = false) (he : p.entryAt? i = some e) :
      Section now p (.enter k i) (p.touch i now) (.done (.handle (.ok e.handle)))
        [.acquired k e.handle]
  | opened {k i target attempt h} :
      Section now p (.connect k i target attempt) (p.store i h now) (.done (.handle (.ok h)))
        [.acquired k h, .opened k target h]
  | replaced {k i h e} (hr : p.isRetired i = false) (he : p.entryAt? i = some e) :
      Section now p (.swap k i h) (p.store i h now) (.done (.handle (.ok e.handle)))
        [.replaced k h e.handle]
  | retired {k i r} (hr : p.isRetired i = false) (he : p.evicts r.eviction i = true) :
      Section now p (.visit k i r) (p.retire i) (.unlink k i r) []
  | evicted {k i r e} (he : p.entryAt? i = some e) :
      Section now p (.unlink k i r) ((p.unlink k i).clear i) (.close i e.handle r)
        [.closing e.handle, .evicted k e.handle]
  | dropped {k i r es} (he : p.entryAt? i = none) (hes : ∀ e ∈ es, e.isQuiet = true) :
      Section now p (.unlink k i r) (p.unlink k i) r.next es

theorem begun_quiet (pt : Point H) :
    ∀ e ∈ (Concert.begun pt : List (Event H Q)), e.isQuiet = true := by
  cases pt <;> simp [Concert.begun, Event.isQuiet]

/-- A slot that is made is noted. -/
theorem events_link (p : Pool H) {k : PoolKey} (hk : p.slotOf? k = none) (now : Nat)
    (got : Attempt H) : (Concert.events p (.link k) (p.advance now got (.link k)).2 :
      List (Event H Q)) = [.made k p.slots.length] := by
  simp [advance, link_of_none hk, Concert.events, Concert.begun, Concert.ended, hk]

theorem advance_section (p : Pool H) (now : Nat) (got : Attempt H) (pt : Point H) :
    Section now p pt (p.advance now got pt).1 (p.advance now got pt).2
      (Concert.events p pt (p.advance now got pt).2 : List (Event H Q)) := by
  -- a section that ends nothing notes at most what begins, and that is quiet
  have hquiet : ∀ pt' : Point H, Concert.ended (Q := Q) p pt pt' = [] →
      ∀ e ∈ (Concert.events p pt pt' : List (Event H Q)), e.isQuiet = true := by
    intro pt' h e he
    rw [Concert.events, h, List.append_nil] at he
    exact begun_quiet pt' e he
  cases pt with
  | start c =>
    refine .quiet ?_ ?_ (hquiet _ rfl)
    · cases c <;> rfl
    · cases c <;> rfl
  | link k =>
    cases hk : p.slotOf? k with
    | none =>
      rw [events_link p hk, advance, link_of_none hk]
      have hmade : Section now p (.link k) (p.link k).2 (.enter k p.slots.length)
          ([.made k p.slots.length] : List (Event H Q)) := .made hk
      rwa [link_of_none hk] at hmade
    | some i =>
      refine .quiet ?_ ?_ (hquiet _ ?_)
      · rw [advance, link_of_some hk]
      · rw [advance, link_of_some hk]
      · simp [advance, Concert.ended, hk]
  | enter k i =>
    rw [advance]
    split
    · refine .quiet rfl rfl (hquiet _ ?_)
      rw [beginAcquire]
      split <;> rfl
    · next hr =>
      split
      · next e he => exact .reused (Bool.eq_false_iff.mpr hr) he
      · exact .quiet rfl rfl (hquiet _ rfl)
  | connect k i target attempt =>
    have hfailed : ∀ e, Concert.ended (Q := Q) p (.connect k i target attempt)
        (p.afterFailure k i target attempt e) = [] := by
      intro e
      rw [afterFailure]
      split <;> rfl
    cases got with
    | opened h => exact .opened
    | failed e => exact .quiet rfl rfl (hquiet _ (hfailed _))
    | timedOut => exact .quiet rfl rfl (hquiet _ (hfailed _))
  | find k h =>
    rw [advance]
    split <;> exact .quiet rfl rfl (hquiet _ rfl)
  | swap k i h =>
    rw [advance]
    split
    · exact .quiet rfl rfl (hquiet _ rfl)
    · next hr =>
      split
      · next e he => exact .replaced (Bool.eq_false_iff.mpr hr) he
      · exact .quiet rfl rfl (hquiet _ rfl)
  -- retiring notes nothing: the connection is taken out by the next section, with the table
  | visit k i r =>
    rw [advance]
    split
    · exact .quiet rfl rfl (hquiet _ rfl)
    · next hkept =>
      rw [Bool.or_eq_true, not_or, Bool.not_eq_true, Bool.not_eq_true', Bool.not_eq_false] at hkept
      exact .retired hkept.1 hkept.2
  | unlink k i r =>
    rw [advance]
    split
    · next e he => exact .evicted he
    · next he =>
      refine .dropped he (hquiet _ ?_)
      rw [Round.next]
      split <;> rfl
  | _ => exact .quiet rfl rfl (hquiet _ rfl)

/-! ## What a call relies on -/

/-- The slots that an eviction has still to look at are under their owners. -/
def Round.Fits (owns : PoolKey → Nat → Prop) (r : Round) : Prop := ∀ x ∈ r.rest, owns x.1 x.2

/-- A slot of a key that was not given up and holds no connection. -/
def Vacant (owns : PoolKey → Nat → Prop) (p : Pool H) (k : PoolKey) (i : Nat) : Prop :=
  owns k i ∧ p.isRetired i = false ∧ p.entryAt? i = none

/-- What a call knows about the pool at a point. -/
def Point.Fits (owns : PoolKey → Nat → Prop) (p : Pool H) : Point H → Prop
  | .enter k i => owns k i
  | .aim k i => Vacant owns p k i
  | .connect k i _ _ => Vacant owns p k i
  | .pause k i _ _ => Vacant owns p k i
  | .swap k i _ => owns k i
  | .visit k i r => owns k i ∧ r.Fits owns
  | .unlink k i r => owns k i ∧ p.isRetired i = true ∧ r.Fits owns
  | .close i _ r => (∃ k, owns k i) ∧ r.Fits owns
  | _ => True

section Fits

variable {owns owns' : PoolKey → Nat → Prop} {p : Pool H}

theorem Round.Fits.next {r : Round} (h : r.Fits owns) : (r.next : Point H).Fits owns p := by
  rw [Round.next]
  split
  · trivial
  · next k i rest hrest =>
    rw [Round.Fits, hrest] at h
    exact List.forall_mem_cons.mp h

theorem Vacant.frame {p' : Pool H} {k : PoolKey} {i : Nat} (h : Vacant owns p k i)
    (howns : ∀ k i, owns k i → owns' k i) (hs : p'.slot i = p.slot i) : Vacant owns' p' k i := by
  rw [Vacant, isRetired, entryAt?, hs]
  exact ⟨howns k i h.1, h.2⟩

/-- What a call relies on stays true as long as the slot whose lock it keeps stays as it is. -/
theorem Point.Fits.frame {p' : Pool H} {pt : Point H} (h : pt.Fits owns p)
    (howns : ∀ k i, owns k i → owns' k i)
    (hs : ∀ i, pt.holds = some (.slot i) → p'.slot i = p.slot i) : pt.Fits owns' p' := by
  have hround : ∀ r : Round, r.Fits owns → r.Fits owns' := fun r hr x hx => howns _ _ (hr x hx)
  cases pt with
  | enter k i => exact howns k i h
  | swap k i x => exact howns k i h
  | aim k i => exact Vacant.frame h howns (hs i rfl)
  | connect k i target attempt => exact Vacant.frame h howns (hs i rfl)
  | pause k i target attempt => exact Vacant.frame h howns (hs i rfl)
  | visit k i r => exact ⟨howns k i h.1, hround r h.2⟩
  | unlink k i r =>
    rw [Point.Fits, isRetired, hs i rfl]
    exact ⟨howns k i h.1, h.2.1, hround r h.2.2⟩
  | close i x r => exact ⟨h.1.imp fun k => howns k i, hround r h.2⟩
  | _ => trivial

/-- A slot whose lock a call keeps has an owner. -/
theorem Point.Fits.owned {pt : Point H} (h : pt.Fits owns p) {i : Nat}
    (hi : pt.holds = some (.slot i)) : ∃ k, owns k i := by
  cases pt with
  | aim k j =>
    cases hi
    exact ⟨k, h.1⟩
  | connect k j target attempt =>
    cases hi
    exact ⟨k, h.1⟩
  | pause k j target attempt =>
    cases hi
    exact ⟨k, h.1⟩
  | unlink k j r =>
    cases hi
    exact ⟨k, h.1⟩
  | close j x r =>
    cases hi
    exact h.1
  | _ => cases hi

/-- A section leaves its call with what the next one relies on. -/
theorem fits_advance (ho : Orderly owns p) {pt : Point H} (h : pt.Fits owns p)
    (howns : ∀ k i, owns k i → owns' k i)
    (hmade : ∀ k, pt = .link k → p.slotOf? k = none → owns' k p.slots.length) (now : Nat)
    (got : Attempt H) : (p.advance now got pt).2.Fits owns' (p.advance now got pt).1 := by
  have hround : ∀ r : Round, r.Fits owns → r.Fits owns' := fun r hr x hx => howns _ _ (hr x hx)
  have hbegin : ∀ (q : Pool H) k, (q.beginAcquire k).Fits owns' q := by
    intro q k
    rw [beginAcquire]
    split <;> trivial
  have hcount : ∀ rest live, (countFrom rest live : Point H).Fits owns' p := by
    intro rest live
    cases rest <;> trivial
  cases pt with
  | start c =>
    cases c with
    | acquire k => exact hbegin p k
    | _ => trivial
  | link k =>
    cases hk : p.slotOf? k with
    | none =>
      rw [advance, link_of_none hk]
      exact hmade k rfl hk
    | some i =>
      rw [advance, link_of_some hk]
      exact howns k i (ho.linked k i (mem_of_slotOf? hk))
  -- the slot may have been given up since it was looked up: then the call begins again
  | enter k i =>
    rw [advance]
    split
    · exact hbegin p k
    · next hr =>
      split
      · trivial
      · next he => exact ⟨howns k i h, Bool.eq_false_iff.mpr hr, he⟩
  | aim k i => exact Vacant.frame h howns rfl
  | connect k i target attempt =>
    have hfailed : ∀ e, (p.afterFailure k i target attempt e).Fits owns' p := by
      intro e
      rw [afterFailure]
      split
      · exact Vacant.frame h howns rfl
      · trivial
    cases got with
    | opened x => trivial
    | failed e => exact hfailed e
    | timedOut => exact hfailed _
  | pause k i target attempt => exact Vacant.frame h howns rfl
  | find k x =>
    rw [advance]
    split
    · next i hk => exact howns k i (ho.linked k i (mem_of_slotOf? hk))
    · trivial
  | swap k i x =>
    rw [advance]
    split
    · trivial
    · split <;> trivial
  -- the table lists each slot under its owner, and so does what is copied from it
  | survey e a =>
    refine Round.Fits.next fun x hx => howns _ _ (ho.linked x.1 x.2 ?_)
    exact (List.mem_filter.mp hx).1
  | visit k i r =>
    rw [advance]
    split
    · exact (hround r h.2).next
    · refine ⟨howns k i h.1, ?_, hround r h.2⟩
      rw [isRetired, retire, slot_modify p i _ i (ho.made k i h.1), if_pos rfl]
  | unlink k i r =>
    rw [advance]
    split
    · exact ⟨⟨k, howns k i h.1⟩, hround r h.2.2⟩
    · exact (hround r h.2.2).next
  | close i x r =>
    refine Round.Fits.next ?_
    exact hround r h.2
  | census => exact hcount _ _
  | count i rest live => exact hcount _ _
  | _ => trivial

end Fits

/-! ## Locks -/

/-- Whether a section runs under a lock: the call keeps it, or it has waited for it. -/
def Point.Under (settings : PoolSettings) (pt : Point H) (l : Lock) : Prop :=
  pt.holds = some l ∨ pt.waits settings = .lock l

/-- A lock that a call keeps behind a section is one that the section ran under. -/
theorem under_of_holds_advance (p : Pool H) (now : Nat) (got : Attempt H) {pt : Point H} {l : Lock}
    (h : (p.advance now got pt).2.holds = some l) : pt.Under p.settings l := by
  have hnext : ∀ r : Round, (r.next : Point H).holds ≠ some l := by
    intro r hr
    rw [Round.next] at hr
    split at hr <;> cases hr
  have hbegin : ∀ k, (p.beginAcquire k).holds ≠ some l := by
    intro k hk
    rw [beginAcquire] at hk
    split at hk <;> cases hk
  have hcount : ∀ rest live, (countFrom rest live : Point H).holds ≠ some l := by
    intro rest live hr
    cases rest <;> cases hr
  have hslot : ∀ i, some (Lock.slot i) = some l → (Wait.lock (.slot i) : Wait H) = .lock l := by
    rintro i ⟨⟩
    rfl
  cases pt with
  | start c =>
    cases c with
    | acquire k => exact absurd h (hbegin k)
    | _ => cases h
  -- only an acquisition or an eviction keeps the lock it has waited for
  | enter k i =>
    rw [advance] at h
    split at h
    · exact absurd h (hbegin k)
    · split at h
      · cases h
      · exact Or.inr (hslot i h)
  | aim k i => exact Or.inl h
  | connect k i target attempt =>
    have hfailed : ∀ e, (p.afterFailure k i target attempt e).holds = some l →
        some (Lock.slot i) = some l := by
      intro e he
      rw [afterFailure] at he
      split at he
      · exact he
      · cases he
    cases got with
    | opened x => cases h
    | failed e => exact Or.inl (hfailed _ h)
    | timedOut => exact Or.inl (hfailed _ h)
  | pause k i target attempt => exact Or.inl h
  | find k x =>
    rw [advance] at h
    split at h <;> cases h
  | swap k i x =>
    rw [advance] at h
    split at h
    · cases h
    · split at h <;> cases h
  | survey e a => exact absurd h (hnext _)
  | visit k i r =>
    rw [advance] at h
    split at h
    · exact absurd h (hnext _)
    · exact Or.inr (hslot i h)
  | unlink k i r =>
    rw [advance] at h
    split at h
    · exact Or.inl h
    · exact absurd h (hnext _)
  | close i x r => exact absurd h (hnext _)
  | census => exact absurd h (hcount _ _)
  | count i rest live => exact absurd h (hcount _ _)
  | _ => cases h

/-- A section changes no slot but the one whose lock it runs under. -/
theorem slot_advance (p : Pool H) (now : Nat) (got : Attempt H) {pt : Point H} {i : Nat}
    (hi : i < p.slots.length) (h : ¬ pt.Under p.settings (.slot i)) :
    (p.advance now got pt).1.slot i = p.slot i := by
  have hsection := advance_section (Q := Unit) p now got pt
  generalize (p.advance now got pt).1 = p', (p.advance now got pt).2 = pt',
    Concert.events p pt (p.advance now got pt).2 = es at hsection ⊢
  have hother : ∀ j, some (Lock.slot j) = pt.holds ∨ Wait.lock (.slot j) = pt.waits p.settings →
      j ≠ i := by
    rintro j hj rfl
    exact h (hj.imp Eq.symm Eq.symm)
  cases hsection with
  | quiet hs hl he => rw [slot, slot, hs]
  | made hk => exact slot_link p _ hi
  | reused hr he => exact slot_modify_of_ne p _ (hother _ (Or.inr rfl))
  | opened => exact slot_modify_of_ne p _ (hother _ (Or.inl rfl))
  | replaced hr he => exact slot_modify_of_ne p _ (hother _ (Or.inr rfl))
  | retired hr he => exact slot_modify_of_ne p _ (hother _ (Or.inr rfl))
  | evicted he => exact slot_modify_of_ne _ _ (hother _ (Or.inl rfl))
  | dropped he hes => rfl

end Polyshell.Pool
