/-
  Commands that nothing else comes between.

  1. **Questions** — work behind work (`run_bind`, `run_andThen`), and what the answers to single
     questions are (`run_select`, `run_send`, `run_replace`).

  2. **Behind an acquisition** — most commands acquire a connection first.  Either there is none,
     and that is the outcome; or the connection is ready, and the command goes on with it
     (`run_acquire`).
-/
import Polyshell.Proofs.Dialogue
import Polyshell.Proofs.Pool.Acquired

namespace Polyshell.Session

variable {σ H Q A α : Type} (party : Party σ H Q A) (k : PoolKey) (p : Pool H) (s : σ)

/-! ## Questions -/

theorem run_bind {β : Type} (d : Session H Q A α) (f : α → Session H Q A β) :
    run party (d.bind f) p s =
      run party (f (run party d p s).1) (run party d p s).2.1 (run party d p s).2.2 :=
  Dialogue.hold_bind party.answer d f (p, s)

/-- What comes behind work that did not fail. -/
theorem run_andThen {ε β : Type} {d : Session H Q A (Except ε α)}
    {f : α → Session H Q A (Except ε β)} {x : α} (h : (run party d p s).1 = .ok x) :
    run party (d.andThen f) p s =
      run party (f x) (run party d p s).2.1 (run party d p s).2.2 := by
  rw [Dialogue.andThen, run_bind, h]

/-- Nothing comes behind work that failed. -/
theorem run_andThen_error {ε β : Type} {d : Session H Q A (Except ε α)}
    (f : α → Session H Q A (Except ε β)) {e : ε} (h : (run party d p s).1 = .error e) :
    (run party (d.andThen f) p s).1 = .error e := by
  rw [Dialogue.andThen, run_bind, h]
  rfl

theorem run_select (d : String) :
    run party (select k d : Session H Q A Unit) p s = ((), p.select k d, s) := by
  have hperform := Pool.perform_select party.toOutside p k d s
  show ((), (p.perform party.toOutside (.select k d) s).2) = _
  rw [hperform]

theorem run_send (h : H) (q : Q) : run party (send h q : Session H Q A A) p s =
    ((party.send h q s).1, p, (party.send h q s).2) := rfl

theorem run_replace (h : H) : run party (replace k h : Session H Q A (Except ShellError H)) p s =
    ((p.perform party.toOutside (.replace k h) s).1.toHandle,
      (p.perform party.toOutside (.replace k h) s).2) := rfl

/-! ## Behind an acquisition -/

/-- Work behind an acquisition: it has none to go on with, or one that is ready. -/
theorem run_acquire (work : H → Session H Q A (Except ShellError α)) :
    ∃ p' s', p'.selected = p.selected ∧
      (∀ k' c, p.live? k' = some c → p'.live? k' = some c) ∧
      ((∃ e, run party ((acquire k).andThen work) p s = (.error e, p', s') ∧
          ((acquire k).andThen work).asked party.answer (p, s) = [.pool (.acquire k)]) ∨
        ∃ c, p'.IsReady k c ∧
          run party ((acquire k).andThen work) p s = run party (work c) p' s' ∧
          ((acquire k).andThen work).asked party.answer (p, s) =
            .pool (.acquire k) :: (work c).asked party.answer (p', s')) := by
  have hleaves : Pool.LeavesSelected (.acquire k : PoolCall H) := trivial
  refine ⟨(p.perform party.toOutside (.acquire k) s).2.1,
    (p.perform party.toOutside (.acquire k) s).2.2,
    Pool.selected_perform party.toOutside hleaves p s,
    fun k' c => Pool.live?_of_acquire party.toOutside p k s, ?_⟩
  have hacquire : (acquire k : Session H Q A (Except ShellError H)).hold party.answer (p, s) =
      ((p.perform party.toOutside (.acquire k) s).1.toHandle,
        (p.perform party.toOutside (.acquire k) s).2) := rfl
  rw [run, Dialogue.andThen, Dialogue.hold_bind, Dialogue.asked_bind, hacquire]
  cases hr : (p.perform party.toOutside (.acquire k) s).1.toHandle with
  | error e => exact Or.inl ⟨e, rfl, rfl⟩
  | ok c => exact Or.inr ⟨c, Pool.ready_of_acquire party.toOutside p k s hr, rfl, rfl⟩

end Polyshell.Session
