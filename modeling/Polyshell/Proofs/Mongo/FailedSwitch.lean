/-
  What a command that fails leaves recorded.

  A switch has its database recorded first, and puts its new handle in place behind that.  So a
  command that fails before has recorded nothing; one that fails there found that the connection that
  it acquired was evicted meanwhile, and its database stays recorded.

  1. **Questions** — what a switch asks, one question behind the other (`session_of_target?`).

  2. **Stages** — how far it has come, what it has recorded, and whether it has its connection still
     (`Stage`).  There is one step lemma for its own turns and one for those of others.

  3. **Failures** — when a command has failed, what is recorded is what all other tasks recorded, or
     its connection was evicted between its acquisition and its last answer (`recorded_behind_failure`).
-/
import Polyshell.Proofs.Mongo.Switching
import Polyshell.Proofs.Pool.Log
import Polyshell.Proofs.Pool.Possession

namespace Polyshell.Mongo

open Pool (Log recorded)
open Pool.Concert (Stepped Logged)

/-- Sessions of turns. -/
abbrev TurnSession : Type :=
  Session Connection Request Answer (Option (Except ShellError Outcome))

/-- Tasks that hold sessions of turns. -/
abbrev TurnTask : Type := Pool.Task Connection Request Answer (Option (Except ShellError Outcome))

/-- States of such tasks. -/
abbrev TurnConcert : Type :=
  Pool.Concert Connection Request Answer (Option (Except ShellError Outcome))

/-! ## Questions -/

section Questions

variable (k : PoolKey) (d : String)

/-- What comes of a replacement. -/
def behindReplacing (r : PoolResult Connection) : TurnSession :=
  match r.toHandle with
  | .ok _ => .done (some (.ok ⟨"switched to db " ++ d, some d⟩))
  | .error e => .done (some (.error e))

/-- Behind the recording of its database a switch puts its new handle in place. -/
def behindSelecting (c : Connection) (_ : PoolResult Connection) : TurnSession :=
  .ask (.pool (.replace k (c.within d))) (behindReplacing d)

/-- Behind its acquisition it has its database recorded. -/
def behindAcquiring (r : PoolResult Connection) : TurnSession :=
  match r.toHandle with
  | .ok c => .ask (.pool (.select k d)) (behindSelecting k d c)
  | .error e => .done (some (.error e))

/-- What a command asks that switches to a database. -/
theorem session_of_target? {ambient : Ambient} {text : String} (h : target? ambient text = some d) :
    (Turn.command ambient k text).session = .ask (.pool (.acquire k)) (behindAcquiring k d) := by
  rw [target?] at h
  split at h
  · cases h
  · next command hparse =>
    split at h
    · next d' haction =>
      cases h
      rw [Turn.session, execute, hparse]
      dsimp only
      rw [haction]
      refine congrArg (Dialogue.ask (Exchange.pool (.acquire k))) (funext fun r => ?_)
      unfold behindAcquiring
      cases hr : r.toHandle with
      | error e => simp only [Dialogue.bind, hr]
      | ok c =>
        simp only [Dialogue.bind, hr, Action.run]
        refine congrArg (Dialogue.ask (Exchange.pool (.select k d))) (funext fun _ =>
          congrArg (Dialogue.ask (Exchange.pool (.replace k (c.within d)))) (funext fun r' => ?_))
        unfold behindReplacing
        cases hr' : r'.toHandle <;> simp only [Dialogue.bind, hr']
    · cases h

end Questions

/-! ## Stages -/

/-- A task has changed nothing of what is recorded. -/
def Quiet (t : Nat) (log : Log Connection) : Prop :=
  ∀ pt, (t, pt) ∈ log → ∀ k remembered, pt.records k remembered = remembered

/-- What a task knows in the middle of a replacement. -/
def Replacing (m : TurnConcert) (t : Nat) (k : PoolKey) : Pool.Point Connection → Prop
  | .done r =>
    (∃ x, r = .handle (.ok x)) ∨ r = .handle (.error (Pool.notPooled k)) ∧ m.Lost t k
  | .swap _ i _ => m.Lost t k ∨ m.Held t k i
  | _ => m.Had t k

/-- A task was told that its key has no connection; the one that it had acquired was evicted since. -/
def Stranded (m : TurnConcert) (t : Nat) (k : PoolKey) (e : ShellError) : Prop :=
  e = Pool.notPooled k ∧ ∃ later since c before,
    m.history = later ++ (t, .returned (.handle (.error e))) ::
      (since ++ (t, .acquired k c) :: before) ∧ ∃ t' x, (t', .evicted k x) ∈ since

/-- How far a task has come that switches to a database. -/
inductive Stage (k : PoolKey) (d : String) (t : Nat) (log : Log Connection) (m : TurnConcert) :
    TurnTask → Prop
  | waiting (hquiet : Quiet t log) :
      Stage k d t log m (.between (.ask (.pool (.acquire k)) (behindAcquiring k d)))
  | acquiring {pt} (hquiet : Quiet t log) (hserves : pt.Serves (.acquire k))
      (hhad : ∀ c, pt = .done (.handle (.ok c)) → m.Had t k) :
      Stage k d t log m (.calling pt (behindAcquiring k d))
  | refused {e} (hquiet : Quiet t log) : Stage k d t log m (.between (.done (some (.error e))))
  | acquired {c} (hhad : m.Had t k) :
      Stage k d t log m (.between (.ask (.pool (.select k d)) (behindSelecting k d c)))
  | selecting {pt c} (hhad : m.Had t k) : Stage k d t log m (.calling pt (behindSelecting k d c))
  | selected {c : Connection} (hhad : m.Had t k) :
      Stage k d t log m (.between (.ask (.pool (.replace k (c.within d))) (behindReplacing d)))
  | replacing {pt x} (hserves : pt.Serves (.replace k x)) (hknows : Replacing m t k pt) :
      Stage k d t log m (.calling pt (behindReplacing d))
  | switched {o} : Stage k d t log m (.between (.done (some (.ok o))))
  | stranded {e} (h : Stranded m t k e) : Stage k d t log m (.between (.done (some (.error e))))

section Turns

variable {k : PoolKey} {d : String} {t : Nat} {log : Log Connection} {m m' : TurnConcert}
  {mv : Pool.Move Connection Answer}

/-- Turns of other tasks change nothing about what a task did. -/
theorem Quiet.others (h : Quiet t log) (hne : mv.task ≠ t) : Quiet t (m.turn mv ++ log) := by
  intro pt hmem
  rcases List.mem_append.mp hmem with hturn | hmem
  · exact absurd (Pool.Concert.mem_turn.mp hturn).1.symm hne
  · exact h pt hmem

/-- A section of a call that leaves alone what is recorded. -/
theorem Quiet.own (h : Quiet mv.task log) {pt : Pool.Point Connection}
    (hpt : m.point? mv.task = some pt)
    (hrecords : ∀ k remembered, pt.records k remembered = remembered) :
    Quiet mv.task (m.turn mv ++ log) := by
  intro pt' hmem
  rcases List.mem_append.mp hmem with hturn | hmem
  · obtain rfl := Option.some.inj (hpt.symm.trans (Pool.Concert.mem_turn.mp hturn).2)
    exact hrecords
  · exact h pt' hmem

theorem Replacing.others (hsound : m.Sound) (hs : Stepped m mv m') {pt : Pool.Point Connection}
    (h : Replacing m t k pt) : Replacing m' t k pt := by
  have hhad : m.Had t k → m'.Had t k := fun h => h.step? hsound hs
  cases pt with
  | done r => exact h.imp_right fun h => ⟨h.1, h.2.step? hs⟩
  | swap k' i x =>
    rcases h with hlost | hheld
    · exact Or.inl (hlost.step? hs)
    · exact (hheld.step? hsound hs).symm
  | _ => exact hhad h

theorem Stranded.later (hs : Stepped m mv m') {e : ShellError} (h : Stranded m t k e) :
    Stranded m' t k e := by
  obtain ⟨he, later, since, c, before, hsplit, hevicted⟩ := h
  obtain ⟨es, hhistory, -⟩ := hs.history
  refine ⟨he, Pool.noted mv.task es later, since, c, before, ?_, hevicted⟩
  rw [hhistory, Pool.noted, Pool.noted, hsplit, List.append_assoc]

/-- Turns of other tasks leave a task at its stage. -/
theorem Stage.others {task : TurnTask} (h : Stage k d t log m task) (hsound : m.Sound)
    (hs : Stepped m mv m') (hne : mv.task ≠ t) : Stage k d t (m.turn mv ++ log) m' task := by
  cases h with
  | waiting hquiet => exact .waiting (hquiet.others hne)
  | acquiring hquiet hserves hhad =>
    exact .acquiring (hquiet.others hne) hserves fun c hc => (hhad c hc).step? hsound hs
  | refused hquiet => exact .refused (hquiet.others hne)
  | acquired hhad => exact .acquired (hhad.step? hsound hs)
  | selecting hhad => exact .selecting (hhad.step? hsound hs)
  | selected hhad => exact .selected (hhad.step? hsound hs)
  | replacing hserves hknows => exact .replacing hserves (hknows.others hsound hs)
  | switched => exact .switched
  | stranded h => exact .stranded (h.later hs)

theorem tasks_put {task : TurnTask} (ht : m.tasks[t]? = some task) (p : Pool Connection)
    (task' : TurnTask) (es : List (Pool.Event Connection Request)) :
    ({ m with pool := p }.put t task' es).tasks[t]? = some task' :=
  List.getElem?_set_self (List.getElem?_eq_some_iff.mp ht).1

/-- A section of a replacement finds the connection in its place, or it was evicted. -/
theorem Replacing.advance {settings : PoolSettings} {works : List TurnSession}
    (hreach : Pool.Concert.Reachable settings works m) {pt : Pool.Point Connection}
    {next : PoolResult Connection → TurnSession} {x : Connection}
    (ht : m.tasks[mv.task]? = some (.calling pt next)) (hserves : pt.Serves (.replace k x))
    (h : Replacing m mv.task k pt)
    (hfree : ∀ l, pt.waits m.pool.settings = .lock l → m.keeps mv.task l = false) :
    Replacing (m.section? mv pt next) mv.task k
      ((Pool.relist m.pool mv.order).advance mv.now mv.got pt).2 := by
  have hsound := hreach.sound
  have hs : Stepped m mv (m.section? mv pt next) := .ran ht hfree
  cases pt with
  | start c =>
    obtain rfl : c = .replace k x := hserves
    exact Pool.Concert.Had.step? h hsound hs
  | find k' x' =>
    obtain ⟨rfl, rfl⟩ := PoolCall.replace.inj hserves
    rcases h with hlost | ⟨i, hheld⟩
    · have hlost' := hlost.step? hs
      rw [Pool.advance]
      split
      · exact Or.inl hlost'
      · exact Or.inr ⟨rfl, hlost'⟩
    · rw [Pool.advance, hheld.slotOf? hsound mv.order]
      exact (hheld.step? hsound hs).symm
  | swap k' i x' =>
    obtain ⟨rfl, rfl⟩ := PoolCall.replace.inj hserves
    rcases h with hlost | hheld
    · have hlost' := hlost.step? hs
      rw [Pool.advance]
      split
      · exact Or.inr ⟨rfl, hlost'⟩
      · split
        · exact Or.inl ⟨_, rfl⟩
        · exact Or.inr ⟨rfl, hlost'⟩
    · have hpt := Pool.Concert.point?_of_calling ht
      have hactive := hheld.isRetired hreach hpt rfl (hfree _ rfl)
      obtain ⟨e, he⟩ := Option.ne_none_iff_exists'.mp hheld.occupied
      rw [Pool.advance, Pool.relist_isRetired, hactive, if_neg Bool.false_ne_true,
        Pool.relist_entryAt?, he]
      exact Or.inl ⟨_, rfl⟩
  | done r => exact h.imp_right fun h => ⟨h.1, h.2.step? hs⟩
  | _ => cases hserves

/-- Its own turns bring a task from stage to stage. -/
theorem Stage.own {settings : PoolSettings} {works : List TurnSession}
    (hreach : Pool.Concert.Reachable settings works m) {task : TurnTask}
    (h : Stage k d mv.task log m task) (ht : m.tasks[mv.task]? = some task) (hs : Stepped m mv m') :
    ∃ task', m'.tasks[mv.task]? = some task' ∧ Stage k d mv.task (m.turn mv ++ log) m' task' := by
  have hhad : m.Had mv.task k → m'.Had mv.task k := fun h => h.step? hreach.sound hs
  cases h with
  | waiting hquiet =>
    obtain rfl := hs.of_asking ht
    rw [Pool.Concert.turn_of_between ht]
    exact ⟨_, tasks_put ht m.pool _ _, .acquiring hquiet rfl fun c hc => by cases hc⟩
  | @acquiring pt hquiet hserves hdone =>
    have hpt := Pool.Concert.point?_of_calling ht
    have hquiet' : Quiet mv.task (m.turn mv ++ log) := hquiet.own hpt fun k' remembered =>
      Pool.records_of_serves (c := .acquire k) trivial hserves remembered
    rcases hs.of_calling ht with ⟨r, rfl, hm'⟩ | ⟨rfl, hfree⟩
    · refine ⟨_, hm' ▸ tasks_put ht m.pool _ _, ?_⟩
      unfold behindAcquiring
      split
      · next c hr =>
        have hresult : r = .handle (.ok c) := by
          cases r with
          | handle x => exact congrArg PoolResult.handle hr
          | _ => cases hr
        exact .acquired (hhad (hdone c (congrArg Pool.Point.done hresult)))
      · exact .refused hquiet'
    · refine ⟨_, tasks_put ht _ _ _, .acquiring hquiet'
        ((Pool.leadsTo_advance _ mv.now mv.got pt).serves hserves) fun c hc => ?_⟩
      by_cases hbusy : ∃ r, pt = .done r
      · obtain ⟨r, rfl⟩ := hbusy
        exact hhad (hdone c hc)
      · exact Or.inr (Pool.Concert.Held.of_acquisition hreach.sound hpt hserves
          (fun r hr => hbusy ⟨r, hr⟩) hc)
  | refused hquiet => exact absurd ht (hs.not_ended _)
  | acquired hacquired =>
    obtain rfl := hs.of_asking ht
    exact ⟨_, tasks_put ht m.pool _ _, .selecting (hhad hacquired)⟩
  | selecting hacquired =>
    rcases hs.of_calling ht with ⟨r, rfl, rfl⟩ | ⟨rfl, hfree⟩
    · exact ⟨_, tasks_put ht m.pool _ _, .selected (hhad hacquired)⟩
    · exact ⟨_, tasks_put ht _ _ _, .selecting (hhad hacquired)⟩
  | selected hacquired =>
    obtain rfl := hs.of_asking ht
    exact ⟨_, tasks_put ht m.pool _ _, .replacing rfl (hhad hacquired)⟩
  | @replacing pt x hserves hknows =>
    rcases hs.of_calling ht with ⟨r, rfl, rfl⟩ | ⟨rfl, hfree⟩
    · refine ⟨_, tasks_put ht m.pool _ _, ?_⟩
      rcases hknows with ⟨c, rfl⟩ | ⟨rfl, since, c, before, hsplit, hevicted⟩
      · exact .switched
      · refine .stranded ⟨rfl, [], since, c, before, ?_, hevicted⟩
        rw [← hsplit]
        rfl
    · exact ⟨_, tasks_put ht _ _ _, .replacing
        ((Pool.leadsTo_advance _ mv.now mv.got pt).serves hserves)
        (hknows.advance hreach ht hserves hfree)⟩
  | switched => exact absurd ht (hs.not_ended _)
  | stranded h => exact absurd ht (hs.not_ended _)

end Turns

/-! ## Failures -/

section Failures

variable {settings : PoolSettings} {works : List TurnSession} {log : Log Connection}
  {m : TurnConcert} {t : Nat} {ambient : Ambient} {k : PoolKey} {text : String}

/-- A task that switches is at some stage. -/
theorem stage_of_logged (h : Logged settings works log m)
    (hw : works[t]? = some (Turn.command ambient k text).session) {d : String}
    (htarget : target? ambient text = some d) :
    ∃ task, m.tasks[t]? = some task ∧ Stage k d t log m task := by
  induction h with
  | start =>
    refine ⟨_, ?_, .waiting fun pt hmem => absurd hmem List.not_mem_nil⟩
    rw [Pool.Concert.start, List.getElem?_map, hw, session_of_target? k d htarget]
    rfl
  | @step log m mv m' h hs ih =>
    obtain ⟨task, ht, hstage⟩ := ih
    have hstepped := Pool.Concert.step?_stepped hs
    by_cases hmover : mv.task = t
    · subst hmover
      exact hstage.own h.reachable ht hstepped
    · obtain ⟨es, -, hothers⟩ := hstepped.history
      exact ⟨task, (hothers t hmover).trans ht, hstage.others h.reachable.sound hstepped hmover⟩

/-- A session that neither selects nor gives keys up changes nothing of what is recorded. -/
theorem quiet_of_always (h : Logged settings works log m) {w : TurnSession}
    (hw : works[t]? = some w) (hleaves : w.Always LeavesSelected fun _ => True) : Quiet t log := by
  intro pt hmem k remembered
  obtain ⟨c, hc, hserves⟩ := h.serves hw hleaves hmem
  exact Pool.records_of_serves (hc c rfl) hserves remembered

theorem Turn.leavesSelected_of_target? (htarget : target? ambient text = none) (k : PoolKey) :
    (Turn.command ambient k text).session.Always LeavesSelected fun _ => True := by
  refine session_always ?_ fun c hc => nomatch hc
  rintro ambient' k' text' ⟨⟩
  exact execute_leavesSelected htarget k

theorem recorded_of_quiet (h : Quiet t log) (k : PoolKey) :
    recorded k (log.filter fun x => x.1 ≠ t) = recorded k log := by
  refine Pool.recorded_filter _ fun x hx hkeep remembered => ?_
  obtain rfl : x.1 = t := by simpa using hkeep
  exact h x.2 hx k remembered

/-- A command of the document shell that has failed, among any others: what is recorded is what it
    would be without the command; unless it is told that its key has no connection, because the one
    that it acquired was evicted before it was done. -/
theorem recorded_behind_failure (h : Logged settings works log m)
    (hw : works[t]? = some (Turn.command ambient k text).session) {e : ShellError}
    (hfailed : m.tasks[t]?.bind Pool.Task.outcome? = some (some (.error e))) :
    (∀ k', m.pool.selection? k' = recorded k' (log.filter fun x => x.1 ≠ t)) ∨
      Stranded m t k e := by
  have hquiet : Quiet t log →
      ∀ k', m.pool.selection? k' = recorded k' (log.filter fun x => x.1 ≠ t) := fun hquiet k' => by
    rw [recorded_of_quiet hquiet, h.selection? k']
  cases htarget : target? ambient text with
  | none =>
    -- a command that does not switch asks nothing that is recorded
    exact Or.inl (hquiet (quiet_of_always h hw (Turn.leavesSelected_of_target? htarget k)))
  | some d =>
    obtain ⟨task, ht, hstage⟩ := stage_of_logged h hw htarget
    rw [ht, Option.bind_some] at hfailed
    cases hstage with
    | refused hq => exact Or.inl (hquiet hq)
    | stranded hs =>
      cases hfailed
      exact Or.inr hs
    | switched => cases hfailed
    | _ => cases hfailed

/-- The connection of a session is swept away, and its next switch finds no server. -/
theorem recorded_behind_failure_unreachable :
    ∃ (ambient : Ambient) (k : PoolKey) (log : Log Connection) (m : TurnConcert) (e : ShellError),
      Logged ⟨0, 0, 0, 1, 0⟩ ([.command ambient k "use orders", .call (.sweepAt 1),
        .command ambient k "use shop"].map Turn.session) log m ∧
      m.tasks[2]?.bind Pool.Task.outcome? = some (some (.error e)) ∧
      m.pool.selection? k = some "orders" ∧
      ((∀ k', m.pool.selection? k' = recorded k' (log.filter fun x => x.1 ≠ 2)) ∨
        Stranded m 2 k e) := by
  let ambient : Ambient := ⟨0, fun _ => default⟩
  let k : PoolKey := ⟨.document, "localhost", 27017, none, none, none, some "1"⟩
  let works : List TurnSession := [.command ambient k "use orders", .call (.sweepAt 1),
    .command ambient k "use shop"].map Turn.session
  let turn (t : Nat) : Pool.Move Connection Answer :=
    ⟨t, 0, if t = 2 then .timedOut else .opened ⟨t, "test"⟩, .ok [], []⟩
  let mvs := [0, 0, 0, 0, 0, 0, 0, 0, 0, 0, 0, 0, 0, 0, 0, 1, 1, 1, 1, 1, 1, 1,
    2, 2, 2, 2, 2, 2, 2].map turn
  have hplay : ((Pool.Concert.start ⟨0, 0, 0, 1, 0⟩ works).play? mvs).any (fun m =>
      ((m.tasks[2]?.bind Pool.Task.outcome?).any fun r => r.any fun r => !r.isOk) &&
        m.pool.selection? k = some "orders") = true := by decide +kernel
  obtain ⟨m, hrun, hfacts⟩ := (Option.any_eq_true _ _).mp hplay
  rw [Bool.and_eq_true, decide_eq_true_eq] at hfacts
  obtain ⟨hfails, hselected⟩ := hfacts
  obtain ⟨e, he⟩ : ∃ e, m.tasks[2]?.bind Pool.Task.outcome? = some (some (.error e)) := by
    obtain ⟨outcome, houtcome, hfails⟩ := (Option.any_eq_true _ _).mp hfails
    obtain ⟨r, rfl, hfails⟩ := (Option.any_eq_true _ _).mp hfails
    cases r with
    | ok o => cases hfails
    | error e => exact ⟨e, houtcome⟩
  have hlogged : Logged ⟨0, 0, 0, 1, 0⟩ works _ m := Logged.start.play? hrun
  exact ⟨ambient, k, _, m, e, hlogged, he, hselected, recorded_behind_failure hlogged rfl he⟩

/-- A sweep comes between the recording of a database and the replacement: the command fails, and its
    database stays recorded, although nobody else has any recorded. -/
theorem recorded_behind_failure_swept :
    ∃ (ambient : Ambient) (k : PoolKey) (log : Log Connection) (m : TurnConcert),
      Logged ⟨0, 0, 0, 1, 0⟩ ([.command ambient k "use shop",
        .call (.sweepAt 1)].map Turn.session) log m ∧
      m.isOver = true ∧
      (m.tasks[0]?.bind Pool.Task.outcome?).map (·.map fun r => r.toOption) = some (some none) ∧
      m.pool.selection? k = some "shop" ∧
      recorded k (log.filter fun x => x.1 ≠ 0) = none := by
  let ambient : Ambient := ⟨0, fun _ => default⟩
  let k : PoolKey := ⟨.document, "localhost", 27017, none, none, none, some "1"⟩
  let works : List TurnSession :=
    [.command ambient k "use shop", .call (.sweepAt 1)].map Turn.session
  let turn (t : Nat) : Pool.Move Connection Answer := ⟨t, 0, .opened ⟨t, "test"⟩, .ok [], []⟩
  let mvs := [0, 0, 0, 0, 0, 0, 0, 0, 0, 0, 0, 1, 1, 1, 1, 1, 1, 1, 0, 0, 0, 0].map turn
  have hplay : ((Pool.Concert.start ⟨0, 0, 0, 1, 0⟩ works).play? mvs).any (fun m =>
      m.isOver &&
      (m.tasks[0]?.bind Pool.Task.outcome?).map (·.map fun r => r.toOption) = some (some none) &&
      m.pool.selection? k = some "shop") = true := by decide +kernel
  have hothers : recorded k (((Pool.Concert.start ⟨0, 0, 0, 1, 0⟩ works).log mvs ++ []).filter
      fun x => x.1 ≠ 0) = none := by decide +kernel
  obtain ⟨m, hrun, hfacts⟩ := (Option.any_eq_true _ _).mp hplay
  simp only [Bool.and_eq_true, decide_eq_true_eq] at hfacts
  obtain ⟨⟨hover, hfails⟩, hselected⟩ := hfacts
  exact ⟨ambient, k, _, m, Logged.start.play? hrun, hover, hfails, hselected, hothers⟩

end Failures

end Polyshell.Mongo
