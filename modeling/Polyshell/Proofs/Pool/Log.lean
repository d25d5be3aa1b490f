/-
  Runs with a log.

  The history of a pool tells what came of calls.  What a pool remembers depends on more than that:
  on which section ran behind which.  `Logged settings works log m` says that tasks come to the state
  `m` and that `log` lists, the latest first, who went on from which point.

  `recorded k log` is what was noted for a key behind the last time that it was given up, and that is
  what the pool remembers (`Logged.selection?`).  It can be asked for any part of a log: of what was
  noted since some moment, or of what all tasks but one noted.
-/
import Polyshell.Proofs.Pool.Selections

namespace Polyshell.Pool

variable {H Q A α : Type}

/-! ## What is noted -/

/-- Who went on from which point, the latest first. -/
abbrev Log (H : Type) := List (Nat × Point H)

/-- What becomes of the database that is remembered for a key. -/
def Point.records (k : PoolKey) : Point H → Option String → Option String
  | .note k' d, remembered => if k' = k then some d else remembered
  | .forget s _, remembered => if s.covers k then none else remembered
  | _, remembered => remembered

/-- What is remembered for a key behind all that a log lists. -/
def recorded (k : PoolKey) : Log H → Option String
  | [] => none
  | (_, pt) :: earlier => pt.records k (recorded k earlier)

section Recorded

variable {k : PoolKey}

/-- What is noted later hides what makes no difference to it. -/
theorem recorded_append_congr {earlier earlier' : Log H} (h : recorded k earlier = recorded k earlier')
    (later : Log H) : recorded k (later ++ earlier) = recorded k (later ++ earlier') := by
  induction later with
  | nil => exact h
  | cons x later ih => exact congrArg (x.2.records k) ih

/-- Only what is noted behind the last time that a key was given up counts. -/
theorem recorded_append_forget {s : Scope} (hs : s.covers k = true) (later earlier : Log H) (t : Nat)
    (a : Account) : recorded k (later ++ (t, .forget s a) :: earlier) = recorded k later := by
  have hforgotten : recorded k ((t, .forget s a) :: earlier : Log H) = recorded k ([] : Log H) :=
    if_pos hs
  rw [recorded_append_congr hforgotten, List.append_nil]

/-- What records nothing can be left out. -/
theorem recorded_filter (keep : Nat × Point H → Bool) {log : Log H}
    (h : ∀ x ∈ log, keep x = false → ∀ remembered, x.2.records k remembered = remembered) :
    recorded k (log.filter keep) = recorded k log := by
  induction log with
  | nil => rfl
  | cons x log ih =>
    obtain ⟨hx, hrest⟩ := List.forall_mem_cons.mp h
    rw [List.filter_cons]
    split
    · exact congrArg (x.2.records k) (ih hrest)
    · next hkeep => exact (ih hrest).trans (hx (Bool.eq_false_iff.mpr hkeep) _).symm

/-- A section changes what is remembered as its point says. -/
theorem selection?_advance (p : Pool H) (now : Nat) (got : Attempt H) (pt : Point H) :
    (p.advance now got pt).1.selection? k = pt.records k (p.selection? k) := by
  cases pt with
  | note k' d =>
    by_cases hk : k' = k
    · subst hk
      exact (selection?_select p k' d).trans (if_pos rfl).symm
    · exact (selection?_select_of_ne p d (Ne.symm hk)).trans (if_neg hk).symm
  | forget s a => exact selection?_forget p s k
  | _ =>
    refine selection?_congr ?_ k
    rcases selected_advance p now got _ with hs | ⟨k', d, hpt, -⟩ | ⟨s, a, hpt, -⟩
    · exact hs
    · cases hpt
    · cases hpt

/-- A call that neither selects nor gives keys up records nothing. -/
theorem records_of_serves {c : PoolCall H} (hc : LeavesSelected c) {pt : Point H}
    (hserves : pt.Serves c) (remembered : Option String) : pt.records k remembered = remembered := by
  cases pt with
  | note k' d =>
    obtain rfl : c = .select k' d := hserves
    exact hc.elim
  | forget s a => cases c <;> first | exact hc.elim | cases hserves
  | _ => rfl

end Recorded

/-! ## Runs -/

namespace Concert

/-- What a move adds to the log. -/
def turn (m : Concert H Q A α) (mv : Move H A) : Log H :=
  (m.point? mv.task).toList.map fun pt => (mv.task, pt)

/-- The log of a sequence of moves. -/
def log (m : Concert H Q A α) : List (Move H A) → Log H
  | [] => []
  | mv :: mvs =>
    match m.step? mv with
    | some m' => m'.log mvs ++ m.turn mv
    | none => []

/-- The states that tasks can come to, with the log on the way. -/
inductive Logged (settings : PoolSettings) (works : List (Session H Q A α)) :
    Log H → Concert H Q A α → Prop
  | start : Logged settings works [] (start settings works)
  | step {log m mv m'} (h : Logged settings works log m) (hs : m.step? mv = some m') :
      Logged settings works (m.turn mv ++ log) m'

section Turn

variable {m : Concert H Q A α} {mv : Move H A}

theorem turn_of_point? {pt : Point H} (h : m.point? mv.task = some pt) :
    m.turn mv = [(mv.task, pt)] := by
  rw [turn, h]
  rfl

theorem turn_of_between {d : Session H Q A α} (h : m.tasks[mv.task]? = some (.between d)) :
    m.turn mv = [] := by
  have hpoint : m.point? mv.task = none := by
    rw [point?, h]
    rfl
  rw [turn, hpoint]
  rfl

theorem mem_turn {t : Nat} {pt : Point H} :
    (t, pt) ∈ m.turn mv ↔ t = mv.task ∧ m.point? mv.task = some pt := by
  rw [turn, List.mem_map]
  constructor
  · rintro ⟨pt', hmem, heq⟩
    obtain ⟨rfl, rfl⟩ := Prod.mk.inj heq
    exact ⟨rfl, Option.mem_toList.mp hmem⟩
  · rintro ⟨rfl, hpt⟩
    exact ⟨pt, Option.mem_toList.mpr hpt, rfl⟩

end Turn

variable {settings : PoolSettings} {works : List (Session H Q A α)} {log : Log H}
  {m : Concert H Q A α}

theorem Logged.reachable (h : Logged settings works log m) : Reachable settings works m := by
  induction h with
  | start => exact ⟨[], rfl⟩
  | step h hs ih => exact ih.step? hs

theorem Logged.play? {log' : Log H} {m₀ : Concert H Q A α} (h : Logged settings works log' m₀)
    {mvs : List (Move H A)} (hplay : m₀.play? mvs = some m) :
    Logged settings works (m₀.log mvs ++ log') m := by
  induction mvs generalizing log' m₀ with
  | nil =>
    cases hplay
    exact h
  | cons mv mvs ih =>
    obtain ⟨m₁, hs, hrest⟩ := Option.bind_eq_some_iff.mp hplay
    have hlater := ih (h.step hs) hrest
    rw [log, hs]
    rwa [← List.append_assoc] at hlater

/-- Every run has a log. -/
theorem Reachable.logged (h : Reachable settings works m) : ∃ log, Logged settings works log m := by
  obtain ⟨mvs, hplay⟩ := h
  exact ⟨_, Logged.start.play? hplay⟩

/-- What the pool remembers for a key is what was recorded. -/
theorem Logged.selection? (h : Logged settings works log m) (k : PoolKey) :
    m.pool.selection? k = recorded k log := by
  induction h with
  | start => rfl
  | @step log m mv m' h hs ih =>
    cases step?_stepped hs with
    | called ht =>
      rw [turn_of_between ht]
      exact ih
    | sent ht =>
      rw [turn_of_between ht]
      exact ih
    | returned ht =>
      rw [turn_of_point? (point?_of_calling ht)]
      exact ih
    | @ran pt next ht hfree =>
      rw [turn_of_point? (point?_of_calling ht)]
      refine (selection?_advance (relist m.pool mv.order) mv.now mv.got pt).trans ?_
      rw [selection?_congr relist_selected, ih]
      rfl

/-- A task goes on only from points of calls that its session can make. -/
theorem Logged.serves (h : Logged settings works log m) {t : Nat} {w : Session H Q A α}
    (hw : works[t]? = some w) {P : Exchange H Q → Prop} (hP : w.Always P fun _ => True) {pt : Point H}
    (hmem : (t, pt) ∈ log) : ∃ c, P (.pool c) ∧ pt.Serves c := by
  induction h with
  | start => cases hmem
  | @step log m mv m' h hs ih =>
    rcases List.mem_append.mp hmem with hturn | hmem
    · obtain ⟨rfl, hpt⟩ := mem_turn.mp hturn
      exact h.reachable.serves hw hP hpt
    · exact ih hmem

end Concert

end Polyshell.Pool
