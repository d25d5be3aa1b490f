/-
  Acquisitions on any pool whatever.

  Nothing is assumed of the pool here: its table may list a slot that was given up, or one slot for
  two keys.  What a call knows it has seen itself, since nothing comes between its sections.

  1. **A call as a whole** — what each of its sections keeps holds where it ends (`drive_keeps`).

  2. **What an acquisition knows** — `Acquiring k p pt`: from where it has looked its slot up, it
     stands in the slot of its key; from where it found it empty, that slot stays empty and is not
     given up.

  3. **What comes of it** — a handle that was acquired is the one in the slot of its key, so it can
     be replaced (`ready_of_acquire`, `perform_replace_ready`); and no live handle of any key is lost
     on the way (`live?_of_acquire`).
-/
import Polyshell.Proofs.Pool.Alone
import Polyshell.Proofs.Pool.Selections

namespace Polyshell.Pool

variable {H σ : Type}

/-! ## A call as a whole -/

/-- What every section keeps holds at the end of a call, which is where its result is. -/
theorem drive_keeps (o : Outside σ H) {I : Pool H → Point H → Prop}
    (hstep : ∀ p pt now got, I p pt → I (p.advance now got pt).1 (p.advance now got pt).2)
    (fuel : Nat) {p : Pool H} {pt : Point H} (h : I p pt) (s : σ) :
    ∃ pt', I (drive o fuel p pt s).2.1 pt' ∧
      ((drive o fuel p pt s).1 = .nothing ∨ pt' = .done (drive o fuel p pt s).1) := by
  induction fuel generalizing p pt s with
  | zero => exact ⟨pt, h, Or.inl rfl⟩
  | succ fuel ih =>
    rw [drive]
    split
    · next r hr => exact ⟨pt, h, Or.inr (Concert.eq_done_of_ended hr)⟩
    · exact ih (hstep p pt _ _ h) _

/-! ## What an acquisition knows -/

/-- The slot of a key is empty and was not given up. -/
def IsVacant (p : Pool H) (k : PoolKey) (i : Nat) : Prop :=
  p.slotOf? k = some i ∧ p.isRetired i = false ∧ p.entryAt? i = none

/-- The slot of a key holds the handle `h` and was not given up. -/
def IsReady (p : Pool H) (k : PoolKey) (h : H) : Prop :=
  ∃ i e, p.slotOf? k = some i ∧ p.isRetired i = false ∧ p.entryAt? i = some e ∧ e.handle = h

/-- What an acquisition of `k` knows at a point. -/
def Acquiring (k : PoolKey) (p : Pool H) : Point H → Prop
  | .start c => c = .acquire k
  | .link k' => k' = k
  | .enter k' i => k' = k ∧ p.slotOf? k = some i
  | .aim k' i => k' = k ∧ p.IsVacant k i
  | .connect k' i _ _ => k' = k ∧ p.IsVacant k i
  | .pause k' i _ _ => k' = k ∧ p.IsVacant k i
  | .done r => ∀ h, r = .handle (.ok h) → p.IsReady k h
  | _ => False

section Sections

variable {p : Pool H} {k : PoolKey}

/-- The handle that was put into the slot of a key is there. -/
theorem IsVacant.store {i : Nat} (h : p.IsVacant k i) (x : H) (now : Nat) :
    (p.store i x now).IsReady k x := by
  have hslot : (p.store i x now).slot i = { p.slot i with entry := some ⟨x, now⟩ } := by
    rw [Pool.store, slot_modify p i _ i (lt_of_not_isRetired h.2.1), if_pos rfl]
  refine ⟨i, ⟨x, now⟩, h.1, ?_, ?_, rfl⟩
  · rw [isRetired, hslot]
    exact h.2.1
  · rw [entryAt?, hslot]

/-- A slot that is used again holds the handle that was found in it. -/
theorem isReady_touch {i : Nat} {e : PoolEntry H} (hi : p.slotOf? k = some i)
    (hr : p.isRetired i = false) (he : p.entryAt? i = some e) (now : Nat) :
    (p.touch i now).IsReady k e.handle := by
  have hslot : (p.touch i now).slot i =
      { p.slot i with entry := (p.slot i).entry.map fun e => { e with lastUsed := now } } := by
    rw [Pool.touch, slot_modify p i _ i (lt_of_not_isRetired hr), if_pos rfl]
  refine ⟨i, { e with lastUsed := now }, hi, ?_, ?_, rfl⟩
  · rw [isRetired, hslot]
    exact hr
  · rw [entryAt?] at he
    rw [entryAt?, hslot, he]
    rfl

/-- A section of an acquisition leaves it with what the next one relies on. -/
theorem acquiring_advance {pt : Point H} (h : Acquiring k p pt) (now : Nat) (got : Attempt H) :
    Acquiring k (p.advance now got pt).1 (p.advance now got pt).2 := by
  have hbegin : Acquiring k p (p.beginAcquire k) := by
    rw [beginAcquire]
    split
    · rintro x ⟨⟩
    · rfl
  cases pt with
  | start c =>
    obtain rfl : c = .acquire k := h
    exact hbegin
  | link k' =>
    obtain rfl : k' = k := h
    exact ⟨rfl, slotOf?_link p k'⟩
  | enter k' i =>
    obtain ⟨rfl, hi⟩ := h
    rw [advance]
    split
    · exact hbegin
    · next hr =>
      rw [Bool.not_eq_true] at hr
      split
      · next e he =>
        rintro x ⟨⟩
        exact isReady_touch hi hr he now
      · next he => exact ⟨rfl, hi, hr, he⟩
  | aim k' i => exact h
  | connect k' i target attempt =>
    obtain ⟨rfl, hvacant⟩ := h
    rw [advance_connect]
    split
    · rintro x ⟨⟩
      exact hvacant.store _ now
    · rw [afterFailure]
      split
      · exact ⟨rfl, hvacant⟩
      · rintro x ⟨⟩
  | pause k' i target attempt => exact h
  | done r => exact h
  | _ => exact h.elim

/-- What is live stays live where one slot is changed that was empty. -/
theorem live?_store {i : Nat} (he : p.entryAt? i = none) (x : H) (now : Nat) {k : PoolKey} {y : H}
    (hy : p.live? k = some y) : (p.store i x now).live? k = some y := by
  obtain ⟨j, hj, hhandle⟩ := Option.bind_eq_some_iff.mp hy
  refine Option.bind_eq_some_iff.mpr ⟨j, hj, ?_⟩
  have hne : i ≠ j := by
    rintro rfl
    exact occupied_of_handle? hhandle he
  rw [Pool.store, handle?_of_slot (slot_modify_of_ne p _ hne)]
  exact hhandle

/-- A slot that is made takes the place of none. -/
theorem slotOf?_link_of_some {k' : PoolKey} {j : Nat} (hj : p.slotOf? k' = some j) :
    (p.link k).2.slotOf? k' = some j := by
  cases hk : p.slotOf? k with
  | some i =>
    rw [link_of_some hk]
    exact hj
  | none =>
    rw [slotOf?, Option.map_eq_some_iff] at hj
    obtain ⟨l, hl, rfl⟩ := hj
    rw [link_of_none hk, slotOf?, List.find?_append, hl]
    rfl

theorem live?_link {k' : PoolKey} {y : H} (hy : p.live? k' = some y) :
    (p.link k).2.live? k' = some y := by
  obtain ⟨j, hj, hhandle⟩ := Option.bind_eq_some_iff.mp hy
  exact Option.bind_eq_some_iff.mpr ⟨j, slotOf?_link_of_some hj, by rwa [handle?_link]⟩

/-- No section of an acquisition takes a handle away. -/
theorem live?_acquiring {pt : Point H} (h : Acquiring k p pt) (now : Nat) (got : Attempt H)
    {k' : PoolKey} {y : H} (hy : p.live? k' = some y) :
    (p.advance now got pt).1.live? k' = some y := by
  cases pt with
  | start c =>
    obtain rfl : c = .acquire k := h
    exact hy
  | link k' => exact live?_link hy
  | enter k' i =>
    rw [advance]
    split
    · exact hy
    · split
      · rw [Tidy.live?_touch]
        exact hy
      · exact hy
  | connect k' i target attempt =>
    rw [advance_connect]
    split
    · exact live?_store h.2.2.2 _ now hy
    · exact hy
  | aim k' i => exact hy
  | pause k' i target attempt => exact hy
  | done r => exact hy
  | _ => exact h.elim

end Sections

/-! ## What comes of it -/

/-- Only a handle is read as one. -/
theorem eq_handle_of_toHandle {r : PoolResult H} {h : H} (hr : r.toHandle = .ok h) :
    r = .handle (.ok h) := by
  cases r with
  | handle x => exact congrArg PoolResult.handle hr
  | _ => cases hr

section Outcome

variable (o : Outside σ H) (p : Pool H) (k : PoolKey) (s : σ)

/-- A handle that was acquired is the one in the slot of its key. -/
theorem ready_of_acquire {h : H} (hr : (p.perform o (.acquire k) s).1.toHandle = .ok h) :
    (p.perform o (.acquire k) s).2.1.IsReady k h := by
  have hstart : Acquiring k p (.start (.acquire k)) := rfl
  obtain ⟨pt, hpt, hend⟩ := drive_keeps o (I := Acquiring k)
    (fun p pt now got h => acquiring_advance h now got) p.sections hstart s
  have hresult := eq_handle_of_toHandle hr
  rcases hend with hnothing | rfl
  · rw [perform, hnothing] at hresult
    cases hresult
  · exact hpt h hresult

/-- An acquisition takes no handle away. -/
theorem live?_of_acquire {k' : PoolKey} {y : H} (hy : p.live? k' = some y) :
    (p.perform o (.acquire k) s).2.1.live? k' = some y := by
  have hstart : Acquiring k p (.start (.acquire k)) ∧ p.live? k' = some y := ⟨rfl, hy⟩
  obtain ⟨_, hpt, _⟩ := drive_keeps o (I := fun p pt => Acquiring k p pt ∧ p.live? k' = some y)
    (fun p pt now got h => ⟨acquiring_advance h.1 now got, live?_acquiring h.1 now got h.2⟩)
    p.sections hstart s
  exact hpt.2

/-- A handle that is ready can be replaced. -/
theorem perform_replace_ready {h : H} (hready : p.IsReady k h) (x : H) :
    (p.perform o (.replace k x) s).1 = .handle (.ok h) := by
  obtain ⟨i, e, hi, hopen, he, rfl⟩ := hready
  rw [perform_replace o hi hopen he]

end Outcome

end Polyshell.Pool
