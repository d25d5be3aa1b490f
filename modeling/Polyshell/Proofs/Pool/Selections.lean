/-
  The databases that a pool remembers.

  1. **Inversion** — a section notes a database on behalf of `select`, or forgets those of the keys that
     are given up; no other section touches what is remembered (`selected_advance`).

  2. **One call** — a call that neither selects nor gives keys up leaves it as it was
     (`selected_perform`), and what is forgotten is that of the keys given up (`selection?_forget`).

  3. **Among others** — what is remembered was asked for by some session (`Reachable.selected`), and a
     task whose session asks for nothing of that kind never changes it
     (`Reachable.selected_of_step?`).
-/
import Polyshell.Pool.Operation
import Polyshell.Proofs.Pool.Steps

namespace Polyshell.Pool

variable {H Q A α σ : Type}

/-! ## Inversion -/

/-- What a section does with the databases that are remembered. -/
theorem selected_advance (p : Pool H) (now : Nat) (got : Attempt H) (pt : Point H) :
    (p.advance now got pt).1.selected = p.selected ∨
    (∃ k d, pt = .note k d ∧ (p.advance now got pt).1.selected = (p.select k d).selected) ∨
    ∃ s a, pt = .forget s a ∧ (p.advance now got pt).1.selected = (p.forget s).selected := by
  cases pt with
  | start c => cases c <;> exact Or.inl rfl
  | link k =>
    left
    rw [advance, link]
    split <;> rfl
  | enter k i =>
    left
    rw [advance]
    split
    · rfl
    · split <;> rfl
  | connect k i target attempt => cases got <;> exact Or.inl rfl
  | find k h =>
    left
    rw [advance]
    split <;> rfl
  | swap k i h =>
    left
    rw [advance]
    split
    · rfl
    · split <;> rfl
  | note k d => exact Or.inr (Or.inl ⟨k, d, rfl, rfl⟩)
  | forget s a => exact Or.inr (Or.inr ⟨s, a, rfl, rfl⟩)
  | visit k i r =>
    left
    rw [advance]
    split <;> rfl
  | unlink k i r =>
    left
    rw [advance]
    split <;> rfl
  | _ => exact Or.inl rfl

/-- A call that neither selects a database nor forgets any. -/
def LeavesSelected : PoolCall H → Prop
  | .select _ _ => False
  | .remove _ => False
  | .removeSession _ => False
  | .shutdown => False
  | _ => True

theorem selected_advance_of_serves (p : Pool H) (now : Nat) (got : Attempt H) {c : PoolCall H}
    (hc : LeavesSelected c) {pt : Point H} (h : pt.Serves c) :
    (p.advance now got pt).1.selected = p.selected := by
  rcases selected_advance p now got pt with hs | ⟨k, d, rfl, -⟩ | ⟨s, a, rfl, -⟩
  · exact hs
  · obtain rfl : c = .select k d := h
    exact hc.elim
  · cases c with
    | sweepAt now => cases h
    | remove k => exact hc.elim
    | removeSession id => exact hc.elim
    | shutdown => exact hc.elim
    | _ => cases h

/-! ## One call -/

theorem selected_drive (o : Outside σ H) {c : PoolCall H} (hc : LeavesSelected c) (fuel : Nat)
    (p : Pool H) {pt : Point H} (h : pt.Serves c) (s : σ) :
    (drive o fuel p pt s).2.1.selected = p.selected := by
  induction fuel generalizing p pt s with
  | zero => rfl
  | succ fuel ih =>
    rw [drive]
    split
    · rfl
    · exact (ih _ ((leadsTo_advance p _ _ _).serves h) _).trans (selected_advance_of_serves p _ _ hc h)

theorem selected_perform (o : Outside σ H) {c : PoolCall H} (hc : LeavesSelected c) (p : Pool H)
    (s : σ) : (p.perform o c s).2.1.selected = p.selected := by
  have hserves : (Point.start c).Serves c := rfl
  exact selected_drive o hc _ p hserves s

/-- What is remembered for a key is read off what is remembered. -/
theorem selection?_congr {p p' : Pool H} (h : p'.selected = p.selected) (k : PoolKey) :
    p'.selection? k = p.selection? k := by
  rw [selection?, selection?, h]

/-- What is forgotten is what some keys selected, and no more. -/
theorem selection?_forget (p : Pool H) (s : Scope) (k : PoolKey) :
    (p.forget s).selection? k = if s.covers k then none else p.selection? k := by
  rw [selection?, selection?, forget, List.find?_filter]
  split
  · next hs =>
    rw [Option.map_eq_none_iff, List.find?_eq_none]
    rintro x - hx
    simp only [Bool.not_eq_true', decide_eq_true_eq] at hx
    rw [hx.2, hs] at hx
    cases hx.1
  · next hs =>
    congr 2
    funext x
    by_cases hx : x.1 = k
    · simp [hx, hs]
    · simp [hx]

/-! ## Among others -/

namespace Concert

variable {settings : PoolSettings} {works : List (Session H Q A α)} {m : Concert H Q A α}

/-- A database that is remembered is one that a session can ask to select. -/
theorem Reachable.selected (h : Reachable settings works m) {P : Exchange H Q → Prop}
    {V : PoolKey → String → Prop} (hV : ∀ k d, P (.pool (.select k d)) → V k d)
    (hworks : ∀ w ∈ works, w.Always P fun _ => True) :
    ∀ x ∈ m.pool.selected, V x.1 x.2 := by
  have hkeeps := fun {m : Concert H Q A α} (hm : Reachable settings works m) =>
    hm.keepsTo (P := fun _ => P) fun t w hw => hworks w (List.mem_of_getElem? hw)
  refine h.induct (I := fun m => ∀ x ∈ m.pool.selected, V x.1 x.2) ?_ ?_
  · exact fun x hx => absurd hx List.not_mem_nil
  · intro m mv m' hreach hm hs
    cases hs with
    | called ht => exact hm
    | sent ht => exact hm
    | returned ht => exact hm
    | @ran pt next ht hfree =>
      obtain ⟨⟨c, hc, hserves⟩, -⟩ := hkeeps hreach mv.task _ ht
      intro x hx
      rcases selected_advance (relist m.pool mv.order) mv.now mv.got pt with
        heq | ⟨k, d, rfl, heq⟩ | ⟨s, a, rfl, heq⟩
      · refine hm x ?_
        rwa [section?, put, heq, relist_selected] at hx
      · rw [section?, put, heq, select, relist_selected] at hx
        rcases List.mem_cons.mp hx with rfl | hx
        · obtain rfl : c = .select k d := hserves
          exact hV k d hc
        · exact hm x (List.mem_filter.mp hx).1
      · rw [section?, put, heq, forget, relist_selected] at hx
        exact hm x (List.mem_filter.mp hx).1

/-- A task that neither selects nor gives keys up leaves alone what is remembered. -/
theorem Reachable.selected_of_step? (h : Reachable settings works m) {mv : Move H A}
    {m' : Concert H Q A α} (hs : m.step? mv = some m') {w : Session H Q A α}
    (hw : works[mv.task]? = some w)
    (hP : w.Always (fun q => ∀ c, q = .pool c → LeavesSelected c) fun _ => True) :
    m'.pool.selected = m.pool.selected := by
  cases step?_stepped hs with
  | called ht => rfl
  | sent ht => rfl
  | returned ht => rfl
  | ran ht hfree =>
    obtain ⟨c, hc, hserves⟩ := h.serves hw hP (point?_of_calling ht)
    have heq := selected_advance_of_serves (relist m.pool mv.order) mv.now mv.got (hc c rfl) hserves
    exact heq.trans relist_selected

end Concert
end Polyshell.Pool
