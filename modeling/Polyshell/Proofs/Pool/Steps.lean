/-
  Steps of tasks that come between one another.

  1. **Inversion** — `Stepped m mv m'` lists what one step can be: a session begins a pool call, sends a
     request or gets the result of its call, or a section of a call is run.  `step?_stepped` says that
     there is nothing else, and `Reachable.induct` turns what each step keeps into what holds of all
     states that tasks can come to.

  2. **Which call it is** — `Point.LeadsTo` lists where a section can lead (`leadsTo_advance`), and
     `Point.Shows` what can be noted on the way (`shows_of_mem_events`).  `Point.Serves c pt` says
     that a call `c` can stand at `pt`; sections stay within their call.

  3. **Which session it is** — a task keeps to what its session can ask: it stands in a pool call of
     that kind, and whatever comes of it, so it goes on (`Reachable.keepsTo`, `Reachable.serves`).
-/
import Polyshell.Proofs.Dialogue
import Polyshell.Pool.Interleaving

namespace Polyshell.Pool

variable {H Q A α : Type}

/-! ## Tasks and locks -/

namespace Concert

/-- Where a task is in a pool call. -/
def point? (m : Concert H Q A α) (t : Nat) : Option (Point H) := m.tasks[t]?.bind Task.point?

theorem point?_put (m : Concert H Q A α) {t : Nat} (ht : t < m.tasks.length)
    (task : Task H Q A α) (es : List (Event H Q)) (t' : Nat) :
    (m.put t task es).point? t' = if t = t' then task.point? else m.point? t' := by
  rw [point?, put, List.getElem?_set]
  split <;> rfl

theorem point?_section? (m : Concert H Q A α) (mv : Move H A) {pt : Point H}
    (next : PoolResult H → Session H Q A α) (ht : mv.task < m.tasks.length) (t : Nat) :
    (m.section? mv pt next).point? t = if mv.task = t then
      some ((relist m.pool mv.order).advance mv.now mv.got pt).2 else m.point? t := by
  rw [section?, point?_put _ (by exact ht)]
  rfl

theorem point?_start (settings : PoolSettings) (works : List (Session H Q A α)) (t : Nat) :
    (start settings works).point? t = none := by
  rw [point?, start, List.getElem?_map]
  cases works[t]? <;> rfl

theorem lt_of_point? {m : Concert H Q A α} {t : Nat} {pt : Point H} (h : m.point? t = some pt) :
    t < m.tasks.length := by
  rw [point?, Option.bind_eq_some_iff] at h
  obtain ⟨task, htask, -⟩ := h
  exact (List.getElem?_eq_some_iff.mp htask).1

/-- Where a task comes to by running a section. -/
theorem point?_section?_self {m : Concert H Q A α} {mv : Move H A} {pt : Point H}
    (hpt : m.point? mv.task = some pt) (next : PoolResult H → Session H Q A α) :
    (m.section? mv pt next).point? mv.task =
      some ((relist m.pool mv.order).advance mv.now mv.got pt).2 := by
  rw [point?_section? m mv next (lt_of_point? hpt), if_pos rfl]

theorem point?_of_calling {m : Concert H Q A α} {t : Nat} {pt : Point H}
    {next : PoolResult H → Session H Q A α} (h : m.tasks[t]? = some (.calling pt next)) :
    m.point? t = some pt := by
  rw [point?, h]
  rfl

/-- A lock that is free for a task is kept by no other. -/
theorem holds_ne_of_keeps {m : Concert H Q A α} {t t' : Nat} {l : Lock} (h : m.keeps t l = false)
    (hne : t' ≠ t) {pt : Point H} (hpt : m.point? t' = some pt) : pt.holds ≠ some l := by
  rw [point?, Option.bind_eq_some_iff] at hpt
  obtain ⟨task, htask, hpoint⟩ := hpt
  rw [keeps, List.any_eq_false] at h
  intro hl
  refine h (task, t') (List.mem_zipIdx_iff_getElem?.mpr htask) ?_
  rw [Bool.and_eq_true, decide_eq_true_eq, decide_eq_true_eq, Task.holds, hpoint]
  exact ⟨hne, hl⟩

end Concert

section Relist

variable {p : Pool H} {order : List (PoolKey × Nat)}

theorem relist_slots : (relist p order).slots = p.slots := by
  rw [relist]
  split <;> rfl

theorem relist_settings : (relist p order).settings = p.settings := by
  rw [relist]
  split <;> rfl

theorem relist_closed : (relist p order).closed = p.closed := by
  rw [relist]
  split <;> rfl

theorem relist_slot (i : Nat) : (relist p order).slot i = p.slot i := by
  rw [slot, slot, relist_slots]

theorem relist_isRetired (i : Nat) : (relist p order).isRetired i = p.isRetired i := by
  rw [isRetired, isRetired, relist_slot]

theorem relist_entryAt? (i : Nat) : (relist p order).entryAt? i = p.entryAt? i := by
  rw [entryAt?, entryAt?, relist_slot]

theorem relist_selected : (relist p order).selected = p.selected := by
  rw [relist]
  split <;> rfl

theorem relist_links : (relist p order).links.Perm p.links := by
  rw [relist]
  split
  · next h => exact h
  · exact List.Perm.refl _

end Relist

/-! ## Inversion -/

namespace Concert

/-- The steps of a task. -/
inductive Stepped (m : Concert H Q A α) (mv : Move H A) : Concert H Q A α → Prop
  /-- A session begins a pool call. -/
  | called {c next} (h : m.tasks[mv.task]? = some (.between (.ask (.pool c) next))) :
      Stepped m mv (m.put mv.task (.calling (.start c) next) [.called c])
  | sent {x q next} (h : m.tasks[mv.task]? = some (.between (.ask (.server x q) next))) :
      Stepped m mv (m.put mv.task (.between (next mv.reply)) [.sent x q])
  | returned {r next} (h : m.tasks[mv.task]? = some (.calling (.done r) next)) :
      Stepped m mv (m.put mv.task (.between (next r)) [.returned r])
  /-- A call runs its next section. -/
  | ran {pt next} (h : m.tasks[mv.task]? = some (.calling pt next))
      (hfree : ∀ l, pt.waits m.pool.settings = .lock l → m.keeps mv.task l = false) :
      Stepped m mv (m.section? mv pt next)

/-- A step of a task that is in the middle of a pool call. -/
theorem step?_calling {m : Concert H Q A α} {mv : Move H A} {pt : Point H}
    {next : PoolResult H → Session H Q A α} (h : m.tasks[mv.task]? = some (.calling pt next)) :
    m.step? mv = match pt.waits m.pool.settings with
      | .ended r => some (m.put mv.task (.between (next r)) [.returned r])
      | .lock l => if m.keeps mv.task l then none else some (m.section? mv pt next)
      | _ => some (m.section? mv pt next) := by
  rewrite [step?, h]
  rfl

/-- Only a call at its end waits for nothing any more. -/
theorem eq_done_of_ended {settings : PoolSettings} {pt : Point H} {r : PoolResult H}
    (h : pt.waits settings = .ended r) : pt = .done r := by
  cases pt with
  | done r' =>
    cases h
    rfl
  | _ => cases h

theorem step?_stepped {m m' : Concert H Q A α} {mv : Move H A} (h : m.step? mv = some m') :
    Stepped m mv m' := by
  cases htask : m.tasks[mv.task]? with
  | none =>
    rw [step?, htask] at h
    cases h
  | some task =>
    cases task with
    | between d =>
      cases d with
      | done x =>
        rw [step?, htask] at h
        cases h
      | ask q next =>
        cases q with
        | pool c =>
          rw [step?, htask] at h
          cases h
          exact .called htask
        | server x q =>
          rw [step?, htask] at h
          cases h
          exact .sent htask
    | calling pt next =>
      rw [step?_calling htask] at h
      cases hw : pt.waits m.pool.settings with
      | ended r =>
        rw [hw] at h
        cases h
        rw [eq_done_of_ended hw] at htask
        exact .returned htask
      | lock l =>
        rw [hw] at h
        replace h : (if m.keeps mv.task l then none else some (m.section? mv pt next)) = some m' := h
        split at h
        · cases h
        · next hk =>
          cases h
          refine .ran htask fun l' hl => ?_
          rw [hw] at hl
          cases hl
          exact Bool.eq_false_iff.mpr hk
      | _ =>
        rw [hw] at h
        cases h
        refine .ran htask fun l hl => ?_
        rw [hw] at hl
        cases hl

section Inversion

variable {m m' : Concert H Q A α} {mv : Move H A}

/-- A session that asks the pool begins a call. -/
theorem Stepped.of_asking (hs : Stepped m mv m') {c : PoolCall H}
    {next : PoolResult H → Session H Q A α}
    (ht : m.tasks[mv.task]? = some (.between (.ask (.pool c) next))) :
    m' = m.put mv.task (.calling (.start c) next) [.called c] := by
  cases hs with
  | called ht' =>
    cases ht.symm.trans ht'
    rfl
  | sent ht' => cases ht.symm.trans ht'
  | returned ht' => cases ht.symm.trans ht'
  | ran ht' hfree => cases ht.symm.trans ht'

/-- A call gives its result to its session, or runs its next section. -/
theorem Stepped.of_calling (hs : Stepped m mv m') {pt : Point H}
    {next : PoolResult H → Session H Q A α} (ht : m.tasks[mv.task]? = some (.calling pt next)) :
    (∃ r, pt = .done r ∧ m' = m.put mv.task (.between (next r)) [.returned r]) ∨
      m' = m.section? mv pt next ∧
        ∀ l, pt.waits m.pool.settings = .lock l → m.keeps mv.task l = false := by
  cases hs with
  | called ht' => cases ht.symm.trans ht'
  | sent ht' => cases ht.symm.trans ht'
  | returned ht' =>
    cases ht.symm.trans ht'
    exact Or.inl ⟨_, rfl, rfl⟩
  | ran ht' hfree =>
    cases ht.symm.trans ht'
    exact Or.inr ⟨rfl, hfree⟩

/-- A session that has ended goes on no more. -/
theorem Stepped.not_ended (hs : Stepped m mv m') (x : α) :
    m.tasks[mv.task]? ≠ some (.between (.done x)) := by
  intro ht
  cases hs with
  | called ht' => cases ht.symm.trans ht'
  | sent ht' => cases ht.symm.trans ht'
  | returned ht' => cases ht.symm.trans ht'
  | ran ht' hfree => cases ht.symm.trans ht'

end Inversion

/-- A step is an aside of a session, in which a call begins or ends at most, or a section of a
    call. -/
theorem Stepped.aside_or_ran {m m' : Concert H Q A α} {mv : Move H A} (h : Stepped m mv m') :
    (m'.pool = m.pool ∧
      (∀ t pt, m.point? t = some pt → (∃ r, pt = .done r) ∨ m'.point? t = some pt) ∧
      ∀ t pt, m'.point? t = some pt → m.point? t = some pt ∨ ∃ c, pt = .start c) ∨
    ∃ pt next, m' = m.section? mv pt next ∧ m.tasks[mv.task]? = some (.calling pt next) ∧
      ∀ l, pt.waits m.pool.settings = .lock l → m.keeps mv.task l = false := by
  have hput : ∀ (old task : Task H Q A α) es, m.tasks[mv.task]? = some old →
      (∀ pt, old.point? = some pt → ∃ r, pt = .done r) →
      (∀ pt, task.point? = some pt → ∃ c, pt = .start c) →
      (∀ t pt, m.point? t = some pt →
        (∃ r, pt = .done r) ∨ (m.put mv.task task es).point? t = some pt) ∧
      ∀ t pt, (m.put mv.task task es).point? t = some pt →
        m.point? t = some pt ∨ ∃ c, pt = .start c := by
    intro old task es ht hold hnew
    have hlt := (List.getElem?_eq_some_iff.mp ht).1
    refine ⟨fun t pt hpt => ?_, fun t pt hpt => ?_⟩
    · by_cases hmoved : mv.task = t
      · subst hmoved
        rw [point?, ht] at hpt
        exact Or.inl (hold pt hpt)
      · right
        rwa [point?_put m hlt, if_neg hmoved]
    · rw [point?_put m hlt] at hpt
      split at hpt
      · exact Or.inr (hnew pt hpt)
      · exact Or.inl hpt
  have hno : ∀ (d : Session H Q A α) (pt : Point H), (Task.between d).point? ≠ some pt := by
    intro d pt hpt
    cases hpt
  cases h with
  | @called c next ht =>
    exact Or.inl ⟨rfl, hput _ _ _ ht (fun pt hpt => absurd hpt (hno _ pt))
      fun pt hpt => ⟨c, (Option.some.inj hpt).symm⟩⟩
  | sent ht =>
    exact Or.inl ⟨rfl, hput _ _ _ ht (fun pt hpt => absurd hpt (hno _ pt))
      fun pt hpt => absurd hpt (hno _ pt)⟩
  | @returned r next ht =>
    exact Or.inl ⟨rfl, hput _ _ _ ht (fun pt hpt => ⟨r, (Option.some.inj hpt).symm⟩)
      fun pt hpt => absurd hpt (hno _ pt)⟩
  | ran ht hfree => exact Or.inr ⟨_, _, rfl, ht, hfree⟩

/-- A step leads to a state that tasks can come to. -/
theorem Reachable.step? {settings : PoolSettings} {works : List (Session H Q A α)}
    {m m' : Concert H Q A α} (h : Reachable settings works m) {mv : Move H A}
    (hs : m.step? mv = some m') : Reachable settings works m' := by
  obtain ⟨mvs, hplay⟩ := h
  refine ⟨mvs ++ [mv], ?_⟩
  rw [play?_append, hplay, Option.bind_some, play?, hs]
  rfl

/-- What holds at the beginning and is kept by every step holds in all states that tasks can come
    to. -/
theorem Reachable.induct {settings : PoolSettings} {works : List (Session H Q A α)}
    {m : Concert H Q A α} (h : Reachable settings works m) {I : Concert H Q A α → Prop}
    (hstart : I (start settings works))
    (hstep : ∀ m mv m', Reachable settings works m → I m → Stepped m mv m' → I m') : I m := by
  obtain ⟨mvs, hplay⟩ := h
  have hrun : ∀ (mvs : List (Move H A)) (m₀ : Concert H Q A α), Reachable settings works m₀ →
      I m₀ → m₀.play? mvs = some m → I m := by
    intro mvs
    induction mvs with
    | nil =>
      intro m₀ hreach h₀ hplay
      cases hplay
      exact h₀
    | cons mv mvs ih =>
      intro m₀ hreach h₀ hplay
      obtain ⟨m₁, hs, hrest⟩ := Option.bind_eq_some_iff.mp hplay
      exact ih m₁ (hreach.step? hs) (hstep m₀ mv m₁ hreach h₀ (step?_stepped hs)) hrest
  exact hrun mvs _ ⟨[], rfl⟩ hstart hplay

end Concert

/-! ## The points of a call -/

/-- Where a call goes first, when it is not refused. -/
def firstPoint : PoolCall H → Point H
  | .acquire k => .link k
  | .replace k h => .find k h
  | .select k d => .note k d
  | .selected k => .recall k
  | .sweepAt now => .survey (.idleAt now) .theNumber
  | .remove k => .forget (.key k) .whetherAny
  | .removeSession id => .forget (.session id) .theNumber
  | .shutdown => .forget .all .nothing
  | .size => .census

/-- Where a section over a pool `p` leads. -/
inductive Point.LeadsTo (p : Pool H) : Point H → Point H → Prop
  | ended {pt r} : LeadsTo p pt (.done r)
  /-- Only a pool that is open lets acquisitions in. -/
  | called {c} (h : ∀ k, c = .acquire k → p.closed = false) : LeadsTo p (.start c) (firstPoint c)
  | linked {k i} : LeadsTo p (.link k) (.enter k i)
  | again {k i} (h : p.closed = false) : LeadsTo p (.enter k i) (.link k)
  | vacant {k i} : LeadsTo p (.enter k i) (.aim k i)
  | aimed {k i target} : LeadsTo p (.aim k i) (.connect k i target 1)
  | failed {k i target n} : LeadsTo p (.connect k i target n) (.pause k i target n)
  | paused {k i target n} : LeadsTo p (.pause k i target n) (.connect k i target (n + 1))
  | found {k i h} : LeadsTo p (.find k h) (.swap k i h)
  | forgot {s a} : LeadsTo p (.forget s a) (.survey (.of s) a)
  | surveyed {e a} : LeadsTo p (.survey e a) (Round.mk e a (p.linksIn e.scope) 0).next
  | passed {k i r} (h : p.isRetired i = true ∨ p.evicts r.eviction i = false) :
      LeadsTo p (.visit k i r) r.next
  | retired {k i r} : LeadsTo p (.visit k i r) (.unlink k i r)
  | dropped {k i r} : LeadsTo p (.unlink k i r) r.next
  | evicted {k i r e} (h : p.entryAt? i = some e) : LeadsTo p (.unlink k i r) (.close i e.handle r)
  | closed {i h} {r : Round} : LeadsTo p (.close i h r) { r with closed := r.closed + 1 }.next
  | surveyedAll {rest live} : LeadsTo p .census (countFrom rest live)
  | counted {i rest live live'} : LeadsTo p (.count i rest live) (countFrom rest live')

theorem leadsTo_advance (p : Pool H) (now : Nat) (got : Attempt H) (pt : Point H) :
    pt.LeadsTo p (p.advance now got pt).2 := by
  cases pt with
  | start c =>
    cases c with
    | acquire k =>
      show Point.LeadsTo p _ (p.beginAcquire k)
      rw [beginAcquire]
      split
      · exact .ended
      · next h => exact .called fun _ _ => Bool.eq_false_iff.mpr h
    | _ => exact .called fun _ h => by cases h
  | link k => exact .linked
  | enter k i =>
    rw [advance]
    split
    · rw [beginAcquire]
      split
      · exact .ended
      · next h => exact .again (Bool.eq_false_iff.mpr h)
    · split
      · exact .ended
      · exact .vacant
  | aim k i => exact .aimed
  | connect k i target n =>
    have hfailed : ∀ e, Point.LeadsTo p (.connect k i target n) (p.afterFailure k i target n e) := by
      intro e
      rw [afterFailure]
      split
      · exact .failed
      · exact .ended
    cases got with
    | opened x => exact .ended
    | failed e => exact hfailed e
    | timedOut => exact hfailed _
  | pause k i target n => exact .paused
  | find k h =>
    rw [advance]
    split
    · exact .found
    · exact .ended
  | swap k i h =>
    rw [advance]
    split
    · exact .ended
    · split <;> exact .ended
  | forget s a => exact .forgot
  | survey e a => exact .surveyed
  | visit k i r =>
    rw [advance]
    split
    · next h =>
      rw [Bool.or_eq_true, Bool.not_eq_true'] at h
      exact .passed h
    · exact .retired
  | unlink k i r =>
    rw [advance]
    split
    · next e h => exact .evicted h
    · exact .dropped
  | close i h r => exact .closed
  | census => exact .surveyedAll
  | count i rest live => exact .counted
  | _ => exact .ended

/-- An eviction ends, or goes into the next of its slots. -/
theorem Round.next_cases (r : Round) :
    (r.rest = [] ∧ (r.next : Point H) = .done (r.account.result r.closed)) ∨ ∃ k i rest,
      r.rest = (k, i) :: rest ∧ (r.next : Point H) = .visit k i { r with rest := rest } := by
  rw [Round.next]
  split
  · next h => exact Or.inl ⟨h, rfl⟩
  · next k i rest h => exact Or.inr ⟨k, i, rest, h, rfl⟩

/-- Which connections a call gives up. -/
def evictionOf? : PoolCall H → Option Eviction
  | .sweepAt now => some (.idleAt now)
  | .remove k => some (.of (.key k))
  | .removeSession id => some (.of (.session id))
  | .shutdown => some (.of .all)
  | _ => none

/-- A call can stand at a point. -/
def Point.Serves (c : PoolCall H) : Point H → Prop
  | .start c' => c' = c
  | .link k => c = .acquire k
  | .enter k _ => c = .acquire k
  | .aim k _ => c = .acquire k
  | .connect k _ _ _ => c = .acquire k
  | .pause k _ _ _ => c = .acquire k
  | .find k h => c = .replace k h
  | .swap k _ h => c = .replace k h
  | .note k d => c = .select k d
  | .recall k => c = .selected k
  | .forget s _ => evictionOf? c = some (.of s)
  | .survey e _ => evictionOf? c = some e
  | .visit _ _ r => evictionOf? c = some r.eviction
  | .unlink _ _ r => evictionOf? c = some r.eviction
  | .close _ _ r => evictionOf? c = some r.eviction
  | .census => c = .size
  | .count _ _ _ => c = .size
  | .done _ => True

/-- A section of a call leads to a point of the same call. -/
theorem Point.LeadsTo.serves {p : Pool H} {c : PoolCall H} {pt pt' : Point H}
    (hl : pt.LeadsTo p pt') (h : pt.Serves c) : pt'.Serves c := by
  have hnext : ∀ r : Round, evictionOf? c = some r.eviction → (r.next : Point H).Serves c := by
    intro r hr
    rcases r.next_cases (H := H) with ⟨-, heq⟩ | ⟨k, i, rest, -, heq⟩
    · rw [heq]
      trivial
    · rw [heq]
      exact hr
  have hcount : ∀ rest live, c = .size → (countFrom rest live : Point H).Serves c := by
    intro rest live hc
    cases rest with
    | nil => trivial
    | cons i rest => exact hc
  cases hl with
  | ended => trivial
  | @called c' hc =>
    obtain rfl : c' = c := h
    cases c' <;> rfl
  | surveyed => exact hnext _ h
  | passed hp => exact hnext _ h
  | dropped => exact hnext _ h
  | closed => exact hnext _ h
  | surveyedAll => exact hcount _ _ h
  | counted => exact hcount _ _ h
  | _ => exact h

/-- An acquisition has its handle from its slot, or from the connector. -/
theorem acquisition_cases {p : Pool H} {pt : Point H} {k : PoolKey} (hserves : pt.Serves (.acquire k))
    {now : Nat} {got : Attempt H} {x : H}
    (hdone : (p.advance now got pt).2 = .done (.handle (.ok x))) :
    pt = .done (.handle (.ok x)) ∨
      (∃ i e, pt = .enter k i ∧ p.isRetired i = false ∧ p.entryAt? i = some e ∧ e.handle = x) ∨
      ∃ i target attempt, pt = .connect k i target attempt ∧ got = .opened x := by
  have hbegin : p.beginAcquire k ≠ .done (.handle (.ok x)) := by
    rw [beginAcquire]
    split <;> rintro ⟨⟩
  cases pt with
  | start c =>
    obtain rfl : c = .acquire k := hserves
    exact absurd hdone hbegin
  | enter k' i =>
    cases hserves
    rw [advance] at hdone
    split at hdone
    · exact absurd hdone hbegin
    · next hr =>
      split at hdone
      · next e he =>
        cases hdone
        exact Or.inr (Or.inl ⟨i, e, rfl, Bool.eq_false_iff.mpr hr, he, rfl⟩)
      · cases hdone
  | connect k' i target attempt =>
    cases hserves
    have hfailed : ∀ e, p.afterFailure k i target attempt e ≠ .done (.handle (.ok x)) := by
      intro e
      rw [afterFailure]
      split <;> rintro ⟨⟩
    cases got with
    | opened y =>
      cases hdone
      exact Or.inr (Or.inr ⟨i, target, attempt, rfl, rfl⟩)
    | failed e => exact absurd hdone (hfailed _)
    | timedOut => exact absurd hdone (hfailed _)
  | done r => exact Or.inl hdone
  | link k' => cases hdone
  | aim k' i => cases hdone
  | pause k' i target attempt => cases hdone
  | _ => cases hserves

/-! ## What is noted -/

/-- What a section over a pool `p` can have noted between one point and the next. -/
inductive Point.Shows (p : Pool H) : Point H → Point H → Event H Q → Prop
  | connecting {pt k i target attempt} : Shows p pt (.connect k i target attempt) (.connecting k target)
  | closing {pt i h r} : Shows p pt (.close i h r) (.closing h)
  | made {k k' i} (h : p.slotOf? k = none) : Shows p (.link k) (.enter k' i) (.made k i)
  | reused {k i h} : Shows p (.enter k i) (.done (.handle (.ok h))) (.acquired k h)
  | acquired {k i target attempt h} :
      Shows p (.connect k i target attempt) (.done (.handle (.ok h))) (.acquired k h)
  | opened {k i target attempt h} :
      Shows p (.connect k i target attempt) (.done (.handle (.ok h))) (.opened k target h)
  | replaced {k i h previous} :
      Shows p (.swap k i h) (.done (.handle (.ok previous))) (.replaced k h previous)
  | evicted {k i r i' h r'} : Shows p (.unlink k i r) (.close i' h r') (.evicted k h)

theorem shows_of_mem_events {p : Pool H} {pt pt' : Point H} {e : Event H Q}
    (h : e ∈ Concert.events p pt pt') : pt.Shows p pt' e := by
  rcases List.mem_append.mp h with hbegun | hended
  · cases pt' with
    | connect k i target attempt =>
      obtain rfl := List.mem_singleton.mp hbegun
      exact .connecting
    | close i x r =>
      obtain rfl := List.mem_singleton.mp hbegun
      exact .closing
    | _ => cases hbegun
  · unfold Concert.ended at hended
    split at hended
    · split at hended
      · next hnone =>
        obtain rfl := List.mem_singleton.mp hended
        exact .made (Option.isNone_iff_eq_none.mp hnone)
      · cases hended
    · obtain rfl := List.mem_singleton.mp hended
      exact .reused
    · rcases List.mem_cons.mp hended with rfl | hended
      · exact .acquired
      · obtain rfl := List.mem_singleton.mp hended
        exact .opened
    · obtain rfl := List.mem_singleton.mp hended
      exact .replaced
    · obtain rfl := List.mem_singleton.mp hended
      exact .evicted
    · cases hended

/-! ## The session of a task -/

/-- What a task keeps to whose session asks questions in `P` only. -/
def Task.KeepsTo (P : Exchange H Q → Prop) : Task H Q A α → Prop
  | .between d => d.Always P fun _ => True
  | .calling pt next => (∃ c, P (.pool c) ∧ pt.Serves c) ∧ ∀ r, (next r).Always P fun _ => True

namespace Concert

/-- Every task keeps to what its session can ask. -/
theorem Reachable.keepsTo {settings : PoolSettings} {works : List (Session H Q A α)}
    {m : Concert H Q A α} (h : Reachable settings works m) {P : Nat → Exchange H Q → Prop}
    (hworks : ∀ (t : Nat) w, works[t]? = some w → w.Always (P t) fun _ => True) :
    ∀ (t : Nat) task, m.tasks[t]? = some task → task.KeepsTo (P t) := by
  refine h.induct (I := fun m => ∀ (t : Nat) task, m.tasks[t]? = some task → task.KeepsTo (P t))
    ?_ ?_
  · intro t task ht
    rw [start, List.getElem?_map, Option.map_eq_some_iff] at ht
    obtain ⟨w, hw, rfl⟩ := ht
    exact hworks t w hw
  · intro m mv m' _ hm hs
    -- only the task that moves is another one behind the step
    have hput : ∀ (p : Pool H) (task : Task H Q A α) (es : List (Event H Q)),
        task.KeepsTo (P mv.task) → ∀ (t : Nat) task', ({ m with pool := p }.put mv.task task es).tasks[t]? =
          some task' → task'.KeepsTo (P t) := by
      intro p task es htask t task' ht
      rw [put, List.getElem?_set] at ht
      split at ht
      · next heq =>
        split at ht
        · cases ht
          rw [← heq]
          exact htask
        · cases ht
      · exact hm t task' ht
    cases hs with
    | @called c next h =>
      have hkeeps := hm mv.task _ h
      exact hput _ _ _ ⟨⟨c, hkeeps.1, rfl⟩, hkeeps.2⟩
    | sent h => exact hput _ _ _ ((hm mv.task _ h).2 mv.reply)
    | @returned r next h => exact hput _ _ _ ((hm mv.task _ h).2 r)
    | @ran pt next h hfree =>
      obtain ⟨⟨c, hc, hserves⟩, hnext⟩ := hm mv.task _ h
      exact hput _ _ _ ⟨⟨c, hc, (leadsTo_advance _ mv.now mv.got pt).serves hserves⟩, hnext⟩

/-- A task stands in a call that its own session can make, whatever the others can. -/
theorem Reachable.serves {settings : PoolSettings} {works : List (Session H Q A α)}
    {m : Concert H Q A α} (h : Reachable settings works m) {t : Nat} {w : Session H Q A α}
    (hw : works[t]? = some w) {P : Exchange H Q → Prop} (hP : w.Always P fun _ => True)
    {pt : Point H} (hpt : m.point? t = some pt) : ∃ c, P (.pool c) ∧ pt.Serves c := by
  have hkeeps := h.keepsTo (P := fun t' q => t' = t → P q) fun t' w' hw' => by
    by_cases ht : t' = t
    · obtain rfl : w = w' := Option.some.inj (hw.symm.trans (ht ▸ hw'))
      exact hP.mono (fun q hq _ => hq) fun _ _ => trivial
    · exact (Dialogue.Always.any w').mono (fun q _ heq => absurd heq ht) fun _ _ => trivial
  rw [point?, Option.bind_eq_some_iff] at hpt
  obtain ⟨task, htask, hpoint⟩ := hpt
  cases task with
  | between d => cases hpoint
  | calling pt' next =>
    obtain rfl : pt' = pt := Option.some.inj hpoint
    obtain ⟨⟨c, hc, hserves⟩, -⟩ := hkeeps t _ htask
    exact ⟨c, hc rfl, hserves⟩

end Concert
end Polyshell.Pool
