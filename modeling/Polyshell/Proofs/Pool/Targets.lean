/-
  Where connections are opened.

  An acquisition asks once which database was selected, and calls the connector with that until it
  answers or no attempts are left.  No section of an acquisition changes what is selected, so every
  call of the connector goes to the key's target as it was when the acquisition began
  (`target_of_connecting`); and neither does any other call that selects nothing and gives no keys
  up (`selected_performAll`).
-/
import Polyshell.Proofs.Pool.Journal
import Polyshell.Proofs.Pool.Selections

namespace Polyshell.Pool

variable {H σ : Type}

/-! ## Several calls -/

/-- Calls that neither select nor give keys up leave what is remembered as it was. -/
theorem selected_performAll (o : Outside σ H) {calls : List (PoolCall H)}
    (hcalls : ∀ c ∈ calls, LeavesSelected c) (p : Pool H) (s : σ) :
    (performAll o p calls s).2.1.selected = p.selected := by
  induction calls generalizing p s with
  | nil => rfl
  | cons c calls ih =>
    obtain ⟨hc, hrest⟩ := List.forall_mem_cons.mp hcalls
    exact (ih hrest _ _).trans (selected_perform o hc p s)

/-- A target is read off what is remembered. -/
theorem target_congr {p p' : Pool H} (h : p'.selected = p.selected) (k : PoolKey) :
    p'.target k = p.target k := by
  rw [target, target, selection?_congr h]

/-- A database that was selected is where the next connection is opened. -/
theorem target_of_selection? {p : Pool H} {k : PoolKey} {d : String}
    (h : p.selection? k = some d) : p.target k = { k with database := some d } := by
  rw [target, h]

/-! ## One acquisition -/

/-- An acquisition that has asked for a target has asked for this one. -/
def Point.Aims (target : PoolKey) : Point H → Prop
  | .connect _ _ target' _ => target' = target
  | .pause _ _ target' _ => target' = target
  | _ => True

section Acquisition

variable {k : PoolKey} {p : Pool H} {pt : Point H}

/-- An acquisition goes on with the target that it has asked for. -/
theorem aims_advance (hserves : pt.Serves (.acquire k)) (haims : pt.Aims (p.target k)) (now : Nat)
    (got : Attempt H) : (p.advance now got pt).2.Aims (p.target k) := by
  have hbegin : ∀ k', (p.beginAcquire k').Aims (p.target k) := by
    intro k'
    rw [beginAcquire]
    split <;> trivial
  cases pt with
  | start c =>
    obtain rfl : c = .acquire k := hserves
    exact hbegin k
  | enter k' i =>
    rw [advance]
    split
    · exact hbegin k'
    · split <;> trivial
  | aim k' i =>
    cases hserves
    exact rfl
  | connect k' i target attempt =>
    rw [advance_connect]
    split
    · trivial
    · rw [afterFailure]
      split
      · exact haims
      · trivial
  | pause k' i target attempt => exact haims
  | link k' => trivial
  | done r => trivial
  | _ => cases hserves

/-- What a section notes of a connector that is called. -/
theorem connecting_of_aboutKeys {before after : Point H} {k' target : PoolKey}
    (h : .connecting k' target ∈ aboutKeys p before after) :
    ∃ i attempt, after = .connect k' i target attempt := by
  have hmem := (List.mem_filter.mp (List.mem_reverse.mp h)).1
  cases shows_of_mem_events hmem
  exact ⟨_, _, rfl⟩

variable (o : Outside σ H)

theorem connecting_of_journal (fuel : Nat) (s : σ) (hserves : pt.Serves (.acquire k))
    (haims : pt.Aims (p.target k)) {k' target : PoolKey}
    (h : .connecting k' target ∈ journal o fuel p pt s) : k' = k ∧ target = p.target k := by
  induction fuel generalizing p pt s with
  | zero => cases h
  | succ fuel ih =>
    rw [journal] at h
    split at h
    · cases h
    · have hserves' := (leadsTo_advance p (o.clock (o.await (pt.waits p.settings) s).2)
        (o.await (pt.waits p.settings) s).1 pt).serves hserves
      have haims' := aims_advance hserves haims (o.clock (o.await (pt.waits p.settings) s).2)
        (o.await (pt.waits p.settings) s).1
      have hkept := target_congr (selected_advance_of_serves p
        (o.clock (o.await (pt.waits p.settings) s).2) (o.await (pt.waits p.settings) s).1
        (c := .acquire k) trivial hserves) k
      rcases List.mem_append.mp h with hnow | hlater
      · obtain ⟨i, attempt, hpt⟩ := connecting_of_aboutKeys hnow
        rw [hpt] at hserves' haims'
        exact ⟨(PoolCall.acquire.inj hserves').symm, haims'⟩
      · rw [← hkept]
        exact ih _ hserves' (hkept ▸ haims') hlater

/-- Every call of the connector on behalf of an acquisition goes to the target of its key. -/
theorem target_of_connecting (s : σ) {k' target : PoolKey}
    (h : .connecting k' target ∈ happens o p (.acquire k) s) : k' = k ∧ target = p.target k :=
  have hserves : (Point.start (.acquire k) : Point H).Serves (.acquire k) := rfl
  connecting_of_journal o p.sections s hserves trivial h

/-- Whether an event is a call of the connector. -/
def Event.dials {Q : Type} : Event H Q → Bool
  | .connecting _ _ => true
  | _ => false

/-- An acquisition that calls the connector calls it for the target of its key. -/
theorem connecting_of_dials (s : σ) (h : (happens o p (.acquire k) s).any Event.dials = true) :
    .connecting k (p.target k) ∈ happens o p (.acquire k) s := by
  obtain ⟨e, he, hdials⟩ := List.any_eq_true.mp h
  cases e with
  | connecting k' target =>
    obtain ⟨rfl, rfl⟩ := target_of_connecting o s he
    exact he
  | _ => cases hdials

end Acquisition

end Polyshell.Pool
