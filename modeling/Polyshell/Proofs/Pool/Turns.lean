/-
  Tasks that look their slot up at once.

  An acquisition looks at the flag of the pool, and then looks its slot up in the table.  It keeps no
  lock in between, so any other task could go on there.  But the lock of the table is kept by nobody
  while he waits (`keeps_table`), so the acquisition need not wait for it either: an executor that
  suspends a task only where it cannot go on does not suspend it there.

  `Prompted` are the states that tasks can come to that way.  They come between one another wherever
  they like, only not between the flag and the lookup; and whoever is about to look his slot up can
  always do so (`Prompted.looks_up`).
-/
import Polyshell.Proofs.Pool.Steps

namespace Polyshell.Pool

variable {H Q A α : Type}

/-! ## Turns -/

/-- Whether a call is about to look up the slot that it acquires. -/
def Point.looksUp : Point H → Bool
  | .link _ => true
  | _ => false

namespace Concert

/-- Whether it can be a task's turn: no other task is about to look its slot up. -/
def lets (m : Concert H Q A α) (t : Nat) : Bool :=
  m.tasks.zipIdx.all fun x => x.2 = t || !x.1.point?.any Point.looksUp

/-- The state behind a sequence of moves, in which an acquisition that found the pool open looks its
    slot up before another task goes on. -/
def promptly? (m : Concert H Q A α) : List (Move H A) → Option (Concert H Q A α)
  | [] => some m
  | mv :: mvs => if m.lets mv.task then (m.step? mv).bind fun m' => m'.promptly? mvs else none

/-- The states that tasks can come to when nothing comes between the flag of the pool and the lookup
    of a slot. -/
def Prompted (settings : PoolSettings) (works : List (Session H Q A α)) (m : Concert H Q A α) :
    Prop :=
  ∃ mvs, (start settings works).promptly? mvs = some m

/-- Whose turn it is while a task is about to look its slot up. -/
theorem eq_of_lets {m : Concert H Q A α} {t t' : Nat} {k : PoolKey} (h : m.lets t = true)
    (hpt : m.point? t' = some (.link k)) : t' = t := by
  rw [point?, Option.bind_eq_some_iff] at hpt
  obtain ⟨task, htask, hpoint⟩ := hpt
  rw [lets, List.all_eq_true] at h
  have ht := h (task, t') (List.mem_zipIdx_iff_getElem?.mpr htask)
  simpa [hpoint, Point.looksUp] using ht

theorem lets_iff {m : Concert H Q A α} {t : Nat} :
    m.lets t = true ↔ ∀ t' k, m.point? t' = some (.link k) → t' = t := by
  constructor
  · exact fun h t' k hpt => eq_of_lets h hpt
  · intro h
    rw [lets, List.all_eq_true]
    rintro ⟨task, t'⟩ hmem
    have htask := List.mem_zipIdx_iff_getElem?.mp hmem
    rw [Bool.or_eq_true, decide_eq_true_eq]
    by_cases hlooks : task.point?.any Point.looksUp
    · left
      obtain ⟨pt, hpoint, hpt⟩ := (Option.any_eq_true _ _).mp hlooks
      cases pt with
      | link k =>
        refine h t' k ?_
        rw [point?, htask]
        exact hpoint
      | _ => cases hpt
    · right
      rw [Bool.eq_false_iff.mpr hlooks]
      rfl

/-- A lock of the table is kept by nobody while he waits. -/
theorem keeps_table (m : Concert H Q A α) (t : Nat) : m.keeps t .table = false := by
  rw [keeps, List.any_eq_false]
  rintro ⟨task, t'⟩ -
  have hholds : task.holds ≠ some Lock.table := by
    cases task with
    | between d => exact fun h => by cases h
    | calling pt next => cases pt <;> exact fun h => by cases h
  simp [hholds]

namespace Prompted

variable {settings : PoolSettings} {works : List (Session H Q A α)} {m m' : Concert H Q A α}

theorem step? (h : Prompted settings works m) {mv : Move H A} (hlets : m.lets mv.task = true)
    (hs : m.step? mv = some m') : Prompted settings works m' := by
  obtain ⟨mvs, hplay⟩ := h
  refine ⟨mvs ++ [mv], ?_⟩
  generalize start settings works = m₀ at hplay
  induction mvs generalizing m₀ with
  | nil =>
    cases hplay
    rw [List.nil_append, promptly?, if_pos hlets, hs]
    rfl
  | cons mv' mvs ih =>
    rw [promptly?] at hplay
    rw [List.cons_append, promptly?]
    split at hplay
    · next hlets' =>
      obtain ⟨m₁, hs', hrest⟩ := Option.bind_eq_some_iff.mp hplay
      rw [if_pos hlets', hs']
      exact ih m₁ hrest
    · cases hplay

/-- What holds at the beginning and is kept by every step of a task whose turn it can be holds in all
    states that tasks can come to by such steps. -/
theorem induct (h : Prompted settings works m) {I : Concert H Q A α → Prop}
    (hstart : I (start settings works))
    (hstep : ∀ m mv m', Prompted settings works m → m.lets mv.task = true → I m →
      m.step? mv = some m' → I m') : I m := by
  obtain ⟨mvs, hplay⟩ := h
  have hrun : ∀ (mvs : List (Move H A)) (m₀ : Concert H Q A α), Prompted settings works m₀ →
      I m₀ → m₀.promptly? mvs = some m → I m := by
    intro mvs
    induction mvs with
    | nil =>
      intro m₀ hprompt h₀ hplay
      cases hplay
      exact h₀
    | cons mv mvs ih =>
      intro m₀ hprompt h₀ hplay
      rw [promptly?] at hplay
      split at hplay
      · next hlets =>
        obtain ⟨m₁, hs, hrest⟩ := Option.bind_eq_some_iff.mp hplay
        exact ih m₁ (hprompt.step? hlets hs)
          (hstep m₀ mv m₁ hprompt hlets h₀ hs) hrest
      · cases hplay
  exact hrun mvs _ ⟨[], rfl⟩ hstart hplay

theorem reachable (h : Prompted settings works m) : Reachable settings works m :=
  h.induct ⟨[], rfl⟩ fun _ _ _ _ _ hm hs => hm.step? hs

/-- At most one task is about to look its slot up. -/
theorem looksUp_unique (h : Prompted settings works m) : ∀ t t' k k',
    m.point? t = some (.link k) → m.point? t' = some (.link k') → t = t' := by
  refine h.induct (I := fun m => ∀ t t' k k', m.point? t = some (.link k) →
    m.point? t' = some (.link k') → t = t') ?_ fun m mv m' hprompt hlets hm hs => ?_
  · intro t t' k k' hpt
    rw [point?_start] at hpt
    cases hpt
  · -- whoever stood there before was the one to move
    have hmover : ∀ t k, m'.point? t = some (.link k) → t = mv.task := by
      intro t k hpt
      rcases (step?_stepped hs).aside_or_ran with ⟨-, -, hnew⟩ | ⟨pt, next, rfl, ht, -⟩
      · rcases hnew t _ hpt with hold | ⟨c, hstart⟩
        · exact eq_of_lets hlets hold
        · cases hstart
      · rw [point?_section? m mv next (lt_of_point? (point?_of_calling ht))] at hpt
        split at hpt
        · next h => exact h.symm
        · exact eq_of_lets hlets hpt
    intro t t' k k' hpt hpt'
    exact (hmover t k hpt).trans (hmover t' k' hpt').symm

/-- A task that is about to look its slot up can always do so: nobody keeps it waiting. -/
theorem looks_up (h : Prompted settings works m) {mv : Move H A} {k : PoolKey}
    (hpt : m.point? mv.task = some (.link k)) :
    ∃ m', m.step? mv = some m' ∧ Prompted settings works m' := by
  have hlets : m.lets mv.task = true := lets_iff.mpr fun t k' hpt' =>
    h.looksUp_unique t mv.task k' k hpt' hpt
  rw [point?, Option.bind_eq_some_iff] at hpt
  obtain ⟨task, htask, hpoint⟩ := hpt
  cases task with
  | between d => cases hpoint
  | calling pt next =>
    cases hpoint
    have hs : m.step? mv = some (m.section? mv (.link k) next) := by
      rw [step?_calling htask]
      show (if m.keeps mv.task .table then none else _) = _
      rw [keeps_table, if_neg Bool.false_ne_true]
    exact ⟨_, hs, h.step? hlets hs⟩

end Prompted

end Concert
end Polyshell.Pool
