/-
  Tasks that take their locks one by one.

  1. **Steps** — in `Concert.step?` a task takes the lock that it waits for and runs the section under it
     in one step.  Here these are two (`Locking.step?`), and other tasks can come between them; only a
     lock that nobody has can be taken.  A section gives back what it does not keep.

  2. **The same states** — the tasks come to the same states as in the coarser steps
     (`Locking.reachable_concert_iff`), and no two tasks have one lock (`Reachable.exclusive`).

  3. **Progress** — there are two ranks of locks.  Who keeps a lock keeps that of a slot, and waits for
     that of no slot; who has the lock of the table or of the databases waits for nothing.  So whoever
     waits, waits for a call that can go on, and in two steps at most (`Reachable.progress`).
-/
import Mathlib.Logic.Relation
import Polyshell.Proofs.Pool.SingleConnection

namespace Polyshell.Pool

variable {H Q A α : Type}

/-! ## Locks of points -/

/-- The lock that is waited for. -/
def Wait.lock? : Wait H → Option Lock
  | .lock l => some l
  | _ => none

theorem Wait.lock?_eq_some_iff {w : Wait H} {l : Lock} : w.lock? = some l ↔ w = .lock l := by
  cases w <;> simp [lock?]

theorem Point.lock?_waits_congr (settings settings' : PoolSettings) (pt : Point H) :
    (pt.waits settings).lock? = (pt.waits settings').lock? := by
  cases pt <;> rfl

/-- Only locks of slots are kept from one section to the next. -/
theorem Point.slot_of_holds {pt : Point H} {l : Lock} (h : pt.holds = some l) :
    ∃ i, l = .slot i := by
  cases pt <;> cases h <;> exact ⟨_, rfl⟩

/-- No call waits for a lock that it keeps. -/
theorem Point.holds_ne_of_waits {settings : PoolSettings} {pt : Point H} {l : Lock}
    (h : pt.waits settings = .lock l) : pt.holds ≠ some l := by
  intro hl
  obtain ⟨i, rfl⟩ := slot_of_holds hl
  rw [Point.holds_eq_none_of_waits_slot h] at hl
  cases hl

namespace Concert

section Free

variable {m m' : Concert H Q A α} {mv : Move H A} {pt : Point H}

theorem keeps_eq_false {t : Nat} {l : Lock}
    (h : ∀ t' pt, m.point? t' = some pt → pt.holds = some l → t' = t) : m.keeps t l = false := by
  rw [keeps, List.any_eq_false]
  rintro ⟨task, t'⟩ hmem hkeeps
  rw [Bool.and_eq_true, decide_eq_true_eq, decide_eq_true_eq] at hkeeps
  obtain ⟨pt, hpt, hl⟩ := Option.bind_eq_some_iff.mp hkeeps.2
  refine hkeeps.1 (h t' pt ?_ hl)
  rw [point?, List.mem_zipIdx_iff_getElem?.mp hmem]
  exact hpt

/-- A call goes on if no other task keeps the lock that it waits for. -/
theorem exists_step? (hpt : m.point? mv.task = some pt)
    (hfree : ∀ l, pt.waits m.pool.settings = .lock l → m.keeps mv.task l = false) :
    ∃ m', m.step? mv = some m' := by
  obtain ⟨task, htask, hpoint⟩ := Option.bind_eq_some_iff.mp hpt
  cases task with
  | between d => cases hpoint
  | calling _ next =>
    cases hpoint
    rw [step?_calling htask]
    cases hw : pt.waits m.pool.settings with
    | lock l => exact ⟨_, if_neg (Bool.eq_false_iff.mp (hfree l hw))⟩
    | _ => exact ⟨_, rfl⟩

theorem free_of_step? (hs : m.step? mv = some m') (hpt : m.point? mv.task = some pt) {l : Lock}
    (hwait : pt.waits m.pool.settings = .lock l) : m.keeps mv.task l = false := by
  obtain ⟨task, htask, hpoint⟩ := Option.bind_eq_some_iff.mp hpt
  cases task with
  | between d => cases hpoint
  | calling _ next =>
    cases hpoint
    rcases (step?_stepped hs).of_calling htask with ⟨r, rfl, -⟩ | ⟨-, hfree⟩
    · cases hwait
    · exact hfree l hwait

end Free
end Concert

/-! ## Steps -/

/-- A section that was run: by whom, from which point and to which. -/
structure Passage (H : Type) where
  task : Nat
  before : Point H
  after : Point H

/-- Tasks at work on a pool, which take the locks that they wait for before they run. -/
structure Locking (H Q A α : Type) where
  concert : Concert H Q A α
  /-- The tasks that have taken the lock that they waited for. -/
  granted : List Nat
  /-- The sections that were run, the latest first. -/
  passages : List (Passage H)

/-- What a task does next: it takes a lock, or it goes on. -/
inductive Act (H A : Type) where
  | take (t : Nat)
  | go (mv : Move H A)

namespace Locking

/-- The lock that a task keeps from its last section. -/
def kept? (m : Locking H Q A α) (t : Nat) : Option Lock := (m.concert.point? t).bind Point.holds

/-- The lock that a task's next section runs under. -/
def awaits? (m : Locking H Q A α) (t : Nat) : Option Lock :=
  (m.concert.point? t).bind fun pt => (pt.waits m.concert.pool.settings).lock?

/-- A task has a lock: it keeps it, or has taken it. -/
def Has (m : Locking H Q A α) (t : Nat) (l : Lock) : Prop :=
  m.kept? t = some l ∨ t ∈ m.granted ∧ m.awaits? t = some l

instance (m : Locking H Q A α) (t : Nat) (l : Lock) : Decidable (m.Has t l) :=
  inferInstanceAs (Decidable (_ ∨ _))

/-- A task has the lock that its next section runs under, or needs none. -/
def Ready (m : Locking H Q A α) (t : Nat) : Prop := m.awaits? t = none ∨ t ∈ m.granted

instance (m : Locking H Q A α) (t : Nat) : Decidable (m.Ready t) :=
  inferInstanceAs (Decidable (_ ∨ _))

/-- Nobody has a lock. -/
def Free (m : Locking H Q A α) (l : Lock) : Prop := ∀ t < m.concert.tasks.length, ¬ m.Has t l

instance (m : Locking H Q A α) (l : Lock) : Decidable (m.Free l) :=
  inferInstanceAs (Decidable (∀ t < _, _))

/-- The section that a task ran, if it stands in its call before and behind a step. -/
def passage (t : Nat) (m m' : Concert H Q A α) : List (Passage H) :=
  match m.point? t, m'.point? t with
  | some before, some after => [⟨t, before, after⟩]
  | _, _ => []

/-- One step; nothing when a lock is not there to be taken, or has to be taken first.  Who takes a lock
    that several tasks wait for is left open. -/
def step? (m : Locking H Q A α) : Act H A → Option (Locking H Q A α)
  | .take t => (m.awaits? t).bind fun l =>
      if t ∉ m.granted ∧ m.Free l then some { m with granted := t :: m.granted } else none
  | .go mv =>
    if m.Ready mv.task then
      (m.concert.step? mv).map fun c =>
        ⟨c, m.granted.filter fun t => t ≠ mv.task, passage mv.task m.concert c ++ m.passages⟩
    else none

/-- Tasks that have not begun. -/
def start (settings : PoolSettings) (works : List (Session H Q A α)) : Locking H Q A α :=
  ⟨Concert.start settings works, [], []⟩

/-- The state behind a sequence of steps. -/
def play? (m : Locking H Q A α) : List (Act H A) → Option (Locking H Q A α)
  | [] => some m
  | a :: as => (m.step? a).bind fun m' => m'.play? as

/-- The states that tasks can come to. -/
inductive Reachable (settings : PoolSettings) (works : List (Session H Q A α)) :
    Locking H Q A α → Prop
  | start : Reachable settings works (Locking.start settings works)
  | step {m m' a} (h : Reachable settings works m) (hs : m.step? a = some m') :
      Reachable settings works m'

/-- The steps of tasks that take their locks one by one. -/
inductive Stepped (m : Locking H Q A α) : Act H A → Locking H Q A α → Prop
  | took {t l} (hl : m.awaits? t = some l) (ht : t ∉ m.granted) (hfree : m.Free l) :
      Stepped m (.take t) { m with granted := t :: m.granted }
  | went {mv c} (hready : m.Ready mv.task) (hs : m.concert.step? mv = some c) :
      Stepped m (.go mv)
        ⟨c, m.granted.filter fun t => t ≠ mv.task, passage mv.task m.concert c ++ m.passages⟩

section Steps

variable {settings : PoolSettings} {works : List (Session H Q A α)} {m m' : Locking H Q A α}
  {a : Act H A}

theorem step?_eq_some_iff : m.step? a = some m' ↔ Stepped m a m' := by
  constructor
  · intro h
    cases a with
    | take t =>
      obtain ⟨l, hl, h⟩ := Option.bind_eq_some_iff.mp h
      split at h
      · next htake =>
        cases h
        exact .took hl htake.1 htake.2
      · cases h
    | go mv =>
      rw [step?] at h
      split at h
      · next hready =>
        obtain ⟨c, hs, rfl⟩ := Option.map_eq_some_iff.mp h
        exact .went hready hs
      · cases h
  · intro h
    cases h with
    | took hl ht hfree =>
      rw [step?, hl]
      exact if_pos ⟨ht, hfree⟩
    | went hready hs =>
      rw [step?, if_pos hready, hs]
      rfl

theorem Reachable.play? (h : Reachable settings works m) {as : List (Act H A)}
    (hplay : m.play? as = some m') : Reachable settings works m' := by
  induction as generalizing m with
  | nil =>
    cases hplay
    exact h
  | cons a as ih =>
    obtain ⟨m₁, hs, hrest⟩ := Option.bind_eq_some_iff.mp hplay
    exact ih (h.step hs) hrest

/-! ## Locks of tasks -/

theorem exists_of_kept {t : Nat} {l : Lock} (h : m.kept? t = some l) :
    ∃ pt, m.concert.point? t = some pt ∧ pt.holds = some l :=
  Option.bind_eq_some_iff.mp h

theorem exists_of_awaits {t : Nat} {l : Lock} (h : m.awaits? t = some l) :
    ∃ pt, m.concert.point? t = some pt ∧ pt.waits m.concert.pool.settings = .lock l := by
  obtain ⟨pt, hpt, hl⟩ := Option.bind_eq_some_iff.mp h
  exact ⟨pt, hpt, Wait.lock?_eq_some_iff.mp hl⟩

theorem kept_of_point? {t : Nat} {pt : Point H} (h : m.concert.point? t = some pt) :
    m.kept? t = pt.holds := by
  rw [kept?, h]
  rfl

theorem awaits_of_waits {t : Nat} {pt : Point H} (h : m.concert.point? t = some pt)
    {settings : PoolSettings} {l : Lock} (hl : pt.waits settings = .lock l) :
    m.awaits? t = some l := by
  rw [awaits?, h, Option.bind_some, Point.lock?_waits_congr _ settings, hl]
  rfl

theorem Ready.granted {t : Nat} {l : Lock} (h : m.Ready t) (hl : m.awaits? t = some l) :
    t ∈ m.granted := by
  refine h.resolve_left fun hnone => ?_
  rw [hnone] at hl
  cases hl

theorem Has.exists_point {t : Nat} {l : Lock} (h : m.Has t l) :
    ∃ pt, m.concert.point? t = some pt := by
  rcases h with h | ⟨-, h⟩
  · obtain ⟨pt, hpt, -⟩ := exists_of_kept h
    exact ⟨pt, hpt⟩
  · obtain ⟨pt, hpt, -⟩ := exists_of_awaits h
    exact ⟨pt, hpt⟩

theorem not_free_iff {l : Lock} : ¬ m.Free l ↔ ∃ t, m.Has t l := by
  constructor
  · intro h
    by_contra hnone
    exact h fun t _ ht => hnone ⟨t, ht⟩
  · rintro ⟨t, h⟩ hfree
    obtain ⟨pt, hpt⟩ := h.exists_point
    exact hfree t (Concert.lt_of_point? hpt) h

/-- To go on takes no lock from anybody, and gives the task none that it did not have. -/
theorem Has.of_went {mv : Move H A} {c : Concert H Q A α}
    (hready : m.Ready mv.task) (hs : m.concert.step? mv = some c) {passages : List (Passage H)}
    {t : Nat} {l : Lock}
    (h : Has ⟨c, m.granted.filter fun t => t ≠ mv.task, passages⟩ t l) : m.Has t l := by
  have hstays : t ≠ mv.task → c.point? t = m.concert.point? t → m.Has t l := by
    intro ht hpoint
    rcases h with h | ⟨ht', h⟩
    · exact Or.inl (by rwa [kept?, hpoint] at h)
    · obtain ⟨pt, hpt, hl⟩ := exists_of_awaits h
      exact Or.inr ⟨(List.mem_filter.mp ht').1, awaits_of_waits (hpoint.symm.trans hpt) hl⟩
  -- whoever has moved has taken no lock since
  have hkept : t = mv.task → ∃ pt, c.point? t = some pt ∧ pt.holds = some l := by
    rintro rfl
    refine exists_of_kept (m := ⟨c, m.granted.filter fun t => t ≠ mv.task, passages⟩)
      (h.resolve_right fun hl => ?_)
    exact of_decide_eq_true (List.mem_filter.mp hl.1).2 rfl
  rcases (Concert.step?_stepped hs).cases with ⟨task, e, rfl, hlt, -, htask⟩ | ⟨pt, next, rfl, hpt, -⟩
  · by_cases ht : t = mv.task
    · obtain ⟨pt, hpt, hl⟩ := hkept ht
      rw [Concert.point?_put _ hlt, if_pos ht.symm] at hpt
      obtain ⟨call, rfl⟩ := htask pt hpt
      cases hl
    · refine hstays ht ?_
      rw [Concert.point?_put _ hlt, if_neg (Ne.symm ht)]
  · by_cases ht : t = mv.task
    · obtain ⟨pt', hpt', hl⟩ := hkept ht
      subst ht
      rw [Concert.point?_section?_self hpt] at hpt'
      cases hpt'
      rcases under_of_holds_advance _ mv.now mv.got hl with hold | hwait
      · exact Or.inl ((kept_of_point? hpt).trans hold)
      · have hawaits := awaits_of_waits hpt hwait
        exact Or.inr ⟨hready.granted hawaits, hawaits⟩
    · refine hstays ht ?_
      rw [Concert.point?_section? _ _ _ (Concert.lt_of_point? hpt), if_neg (Ne.symm ht)]

/-- No two tasks have one lock. -/
theorem Reachable.exclusive (h : Reachable settings works m) :
    ∀ t t' l, m.Has t l → m.Has t' l → t = t' := by
  induction h with
  | start =>
    intro t t' l ht
    obtain ⟨pt, hpt⟩ := ht.exists_point
    rw [Locking.start, Concert.point?_start] at hpt
    cases hpt
  | @step m m' a h hs ih =>
    cases step?_eq_some_iff.mp hs with
    | @took t l hl ht hfree =>
      -- a lock that was taken was nobody's
      have hcases : ∀ t' l', Has { m with granted := t :: m.granted } t' l' →
          m.Has t' l' ∨ t' = t ∧ l' = l := by
        rintro t' l' (hkept | ⟨hmem, hawaits⟩)
        · exact Or.inl (Or.inl hkept)
        · rcases List.mem_cons.mp hmem with rfl | hmem
          · exact Or.inr ⟨rfl, Option.some.inj (hawaits.symm.trans hl)⟩
          · exact Or.inl (Or.inr ⟨hmem, hawaits⟩)
      have hnobody : ∀ t', ¬ m.Has t' l := fun t' ht' => not_free_iff.mpr ⟨t', ht'⟩ hfree
      intro t₁ t₂ l' h₁ h₂
      rcases hcases t₁ l' h₁ with hold₁ | ⟨rfl, rfl⟩
      · rcases hcases t₂ l' h₂ with hold₂ | ⟨rfl, rfl⟩
        · exact ih t₁ t₂ l' hold₁ hold₂
        · exact absurd hold₁ (hnobody t₁)
      · rcases hcases t₂ l' h₂ with hold₂ | ⟨rfl, -⟩
        · exact absurd hold₂ (hnobody t₂)
        · rfl
    | went hready hstep =>
      intro t t' l ht ht'
      exact ih t t' l (ht.of_went hready hstep) (ht'.of_went hready hstep)

/-! ## The same states -/

theorem Reachable.concert (h : Reachable settings works m) :
    Concert.Reachable settings works m.concert := by
  induction h with
  | start => exact ⟨[], rfl⟩
  | step h hs ih =>
    cases step?_eq_some_iff.mp hs with
    | took => exact ih
    | went hready hstep => exact ih.step? hstep

/-- A step in which a task takes its lock and uses it is the two steps one behind the other. -/
theorem Reachable.step_concert {c c' : Concert H Q A α} {passages : List (Passage H)}
    (h : Reachable settings works ⟨c, [], passages⟩) {mv : Move H A} (hs : c.step? mv = some c') :
    Reachable settings works ⟨c', [], passage mv.task c c' ++ passages⟩ := by
  cases hl : awaits? ⟨c, [], passages⟩ mv.task with
  | none => exact h.step (step?_eq_some_iff.mpr (.went (Or.inl hl) hs))
  | some l =>
    obtain ⟨pt, hpt, hwait⟩ := exists_of_awaits hl
    have hfree : Free ⟨c, [], passages⟩ l := by
      rintro t - (hkept | ⟨hmem, -⟩)
      · obtain ⟨pt', hpt', hl'⟩ := exists_of_kept hkept
        by_cases ht : t = mv.task
        · subst ht
          cases hpt.symm.trans hpt'
          exact Point.holds_ne_of_waits hwait hl'
        · exact Concert.holds_ne_of_keeps (Concert.free_of_step? hs hpt hwait) ht hpt' hl'
      · cases hmem
    have htook := h.step (step?_eq_some_iff.mpr (.took hl List.not_mem_nil hfree))
    have hwent := htook.step (step?_eq_some_iff.mpr
      (.went (Or.inr List.mem_cons_self) hs))
    rwa [show ([mv.task].filter fun t => t ≠ mv.task) = [] by simp] at hwent

/-- Tasks that take their locks one by one come to the same states as those that take each lock and use
    it in one step. -/
theorem reachable_concert_iff {c : Concert H Q A α} : Concert.Reachable settings works c ↔
    ∃ passages, Reachable settings works ⟨c, [], passages⟩ := by
  constructor
  · rintro ⟨mvs, hplay⟩
    have hrun : ∀ (mvs : List (Move H A)) (c₀ : Concert H Q A α) passages,
        Reachable settings works ⟨c₀, [], passages⟩ → c₀.play? mvs = some c →
        ∃ passages, Reachable settings works ⟨c, [], passages⟩ := by
      intro mvs
      induction mvs with
      | nil =>
        intro c₀ passages h hplay
        cases hplay
        exact ⟨passages, h⟩
      | cons mv mvs ih =>
        intro c₀ passages h hplay
        obtain ⟨c₁, hs, hrest⟩ := Option.bind_eq_some_iff.mp hplay
        exact ih c₁ _ (h.step_concert hs) hrest
    exact hrun mvs _ [] .start hplay
  · rintro ⟨passages, h⟩
    exact h.concert

/-! ## Progress -/

/-- A task can go on: it can take the lock that it waits for, or run, whatever comes from outside. -/
def CanGo (m : Locking H Q A α) (t : Nat) : Prop :=
  (∃ m', m.step? (.take t) = some m') ∨
    ∀ mv : Move H A, mv.task = t → ∃ m', m.step? (.go mv) = some m'

/-- A task waits for a lock that another task has. -/
def WaitsFor (m : Locking H Q A α) (t t' : Nat) : Prop :=
  ∃ l, m.awaits? t = some l ∧ t ∉ m.granted ∧ m.Has t' l

theorem WaitsFor.exists_point {t t' : Nat} (h : m.WaitsFor t t') :
    ∃ pt, m.concert.point? t' = some pt := by
  obtain ⟨l, -, -, hhas⟩ := h
  exact hhas.exists_point

/-- A call that needs no lock, or has it, can run. -/
theorem canGo_of_ready (hexclusive : ∀ t t' l, m.Has t l → m.Has t' l → t = t') {t : Nat} {pt : Point H}
    (hpt : m.concert.point? t = some pt) (hready : m.Ready t) : m.CanGo t := by
  refine Or.inr fun mv hmv => ?_
  subst hmv
  have hfree : ∀ l, pt.waits m.concert.pool.settings = .lock l →
      m.concert.keeps mv.task l = false := by
    intro l hwait
    have hl := awaits_of_waits hpt hwait
    refine Concert.keeps_eq_false fun t' pt' hpt' hl' => hexclusive t' mv.task l (Or.inl ?_) ?_
    · exact (kept_of_point? hpt').trans hl'
    · exact Or.inr ⟨hready.granted hl, hl⟩
  obtain ⟨c, hc⟩ := Concert.exists_step? hpt hfree
  exact ⟨_, step?_eq_some_iff.mpr (.went hready hc)⟩

/-- A call can go on, or waits for a task. -/
theorem canGo_or_waitsFor (hexclusive : ∀ t t' l, m.Has t l → m.Has t' l → t = t') {t : Nat}
    {pt : Point H} (hpt : m.concert.point? t = some pt) : m.CanGo t ∨ ∃ t', m.WaitsFor t t' := by
  by_cases hready : m.Ready t
  · exact Or.inl (canGo_of_ready hexclusive hpt hready)
  · obtain ⟨hwaits, hungranted⟩ := not_or.mp hready
    obtain ⟨l, hl⟩ := Option.ne_none_iff_exists'.mp hwaits
    by_cases hfree : m.Free l
    · exact Or.inl (Or.inl ⟨_, step?_eq_some_iff.mpr (.took hl hungranted hfree)⟩)
    · obtain ⟨t', ht'⟩ := not_free_iff.mp hfree
      exact Or.inr ⟨t', l, hl, hungranted, ht'⟩

/-- Who is waited for by a task that is waited for itself can go on. -/
theorem WaitsFor.canGo (hexclusive : ∀ t t' l, m.Has t l → m.Has t' l → t = t') {t t₁ t₂ : Nat}
    (h : m.WaitsFor t t₁) (h' : m.WaitsFor t₁ t₂) : m.CanGo t₂ := by
  obtain ⟨l, -, -, hhas⟩ := h
  obtain ⟨l', hl', hungranted, hhas'⟩ := h'
  -- what the one between them has, it keeps; so it is the lock of a slot, and the other lock is not
  obtain ⟨pt, hpt, hholds⟩ := exists_of_kept (hhas.resolve_right fun hl => hungranted hl.1)
  obtain ⟨pt', hpt', hwaits⟩ := exists_of_awaits hl'
  cases hpt.symm.trans hpt'
  obtain ⟨pt₂, hpt₂⟩ := hhas'.exists_point
  refine canGo_of_ready hexclusive hpt₂ (Or.inr ?_)
  rcases hhas' with hkept' | ⟨hgranted, -⟩
  · obtain ⟨pt', -, hholds'⟩ := exists_of_kept hkept'
    obtain ⟨j, rfl⟩ := Point.slot_of_holds hholds'
    rw [Point.holds_eq_none_of_waits_slot hwaits] at hholds
    cases hholds
  · exact hgranted

/-- Every call can go on, or waits for one that can, if not at once then with one between them. -/
theorem Reachable.progress (h : Reachable settings works m) {t : Nat} {pt : Point H}
    (hpt : m.concert.point? t = some pt) : ∃ t' pt', m.concert.point? t' = some pt' ∧
      Relation.ReflTransGen m.WaitsFor t t' ∧ m.CanGo t' := by
  rcases canGo_or_waitsFor h.exclusive hpt with hgo | ⟨t₁, h₁⟩
  · exact ⟨t, pt, hpt, .refl, hgo⟩
  obtain ⟨pt₁, hpt₁⟩ := h₁.exists_point
  rcases canGo_or_waitsFor h.exclusive hpt₁ with hgo | ⟨t₂, h₂⟩
  · exact ⟨t₁, pt₁, hpt₁, .single h₁, hgo⟩
  obtain ⟨pt₂, hpt₂⟩ := h₂.exists_point
  exact ⟨t₂, pt₂, hpt₂, (Relation.ReflTransGen.single h₁).tail h₂, h₁.canGo h.exclusive h₂⟩

end Steps
end Locking
end Polyshell.Pool
