/-
  Who has a handle.

  1. **Arrivals** — a handle arrives when a connection is opened, or when it is put in place of
     another.  Here no handle arrives twice (`arrivals history` has no duplicates), so that a handle
     stands for one connection.

  2. **Whereabouts** — a handle that arrived lies in one slot, or was taken out once and passed on to
     be closed once, or was handed back once (`Whereabouts`).  This is read off the ledger, for a
     single handle.

  3. **Acquisitions** — none gives out a handle that was passed on to be closed before it began
     (`Upheld`): what it finds in its slot, or has from the connector, was never taken out.

  `Reachable.custody` puts the three together.
-/
import Polyshell.Proofs.Pool.Shutdown

namespace Polyshell.Pool

variable {H Q A α : Type}

/-! ## Arrivals -/

/-- The handle that comes into the pool. -/
def Event.arrival? : Event H Q → Option H
  | .opened _ _ h => some h
  | .replaced _ h _ => some h
  | _ => none

/-- The handles that came into the pool, the latest first. -/
def arrivals (history : History H Q) : List H := history.filterMap fun x => x.2.arrival?

theorem arrivals_noted (t : Nat) (es : List (Event H Q)) (history : History H Q) :
    arrivals (noted t es history) = es.filterMap Event.arrival? ++ arrivals history := by
  rw [arrivals, noted, List.filterMap_append, List.filterMap_map]
  rfl

section Counts

variable [DecidableEq H] (x : H)

/-- Whether a handle is this one. -/
def isHandle (y : H) : Bool := y = x

theorem brought_eq_count (history : History H Q) :
    brought (isHandle x) history = (arrivals history).count x := by
  rw [arrivals, List.count_filterMap, brought]
  refine List.countP_congr ?_
  rintro ⟨t, e⟩ -
  cases e <;> simp [Event.brings, Event.arrival?, isHandle]

/-- How often a handle was taken out of a slot that was given up. -/
def takings (history : History H Q) : Nat := history.countP fun e => e.2.takesOut (isHandle x)

theorem closing_not_mem {history : History H Q} (h : closings (isHandle x) history = 0) (t : Nat) :
    (t, .closing x) ∉ history := fun hmem =>
  List.countP_eq_zero.mp h _ hmem (decide_eq_true rfl)

end Counts

/-! ## Whereabouts -/

/-- In how many places a handle is. -/
structure Whereabouts where
  /-- In so many slots it lies. -/
  slots : Nat
  /-- So often it was taken out of a slot that was given up. -/
  taken : Nat
  /-- So often it was passed on to be closed. -/
  closed : Nat
  /-- So often it was handed back for another. -/
  handedBack : Nat
deriving DecidableEq

namespace Whereabouts

/-- In one slot. -/
def pooled : Whereabouts := ⟨1, 0, 0, 0⟩

/-- Taken out once, and passed on to be closed once. -/
def closing : Whereabouts := ⟨0, 1, 1, 0⟩

/-- Handed back once. -/
def returned : Whereabouts := ⟨0, 0, 0, 1⟩

end Whereabouts

/-- What is taken out of a slot is passed on to be closed by the same section. -/
theorem closing_mem_events_iff {p : Pool H} {pt pt' : Point H} (hl : pt.LeadsTo p pt') (x : H) :
    (.closing x : Event H Q) ∈ Concert.events p pt pt' ↔
      ∃ k, (.evicted k x : Event H Q) ∈ Concert.events p pt pt' := by
  constructor
  · intro hclosing
    cases shows_of_mem_events hclosing
    obtain ⟨k, e, rfl, -, rfl⟩ := hl.eq_unlink
    exact ⟨k, List.mem_cons_of_mem _ List.mem_cons_self⟩
  · rintro ⟨k, hevicted⟩
    cases shows_of_mem_events hevicted
    exact List.mem_cons_self

/-! ## The latest call of a task -/

/-- The latest call of a task, what was noted since, and what had been noted before. -/
structure LatestCall (t : Nat) (c : PoolCall H) (since before history : History H Q) : Prop where
  split : history = since ++ (t, .called c) :: before
  latest : ∀ c', (t, .called c') ∉ since

namespace LatestCall

variable {t : Nat} {c c' : PoolCall H} {since before since' before' history : History H Q}

/-- No other call of the task came since its latest. -/
theorem eq_of_since (h : LatestCall t c since before history) {mid : History H Q}
    (hsince : since = since' ++ mid)
    (hbefore : (t, .called c') :: before' = mid ++ (t, .called c) :: before) :
    c' = c ∧ since' = since ∧ before' = before := by
  cases mid with
  | nil =>
    obtain ⟨hcall, rfl⟩ := List.cons.inj hbefore
    cases hcall
    exact ⟨rfl, (hsince.trans (List.append_nil _)).symm, rfl⟩
  | cons e mid =>
    obtain ⟨rfl, -⟩ := List.cons.inj hbefore
    refine absurd ?_ (h.latest c')
    rw [hsince]
    exact List.mem_append_right _ List.mem_cons_self

theorem unique (h : LatestCall t c since before history)
    (h' : LatestCall t c' since' before' history) : c = c' ∧ since = since' ∧ before = before' := by
  have heq := h.split.symm.trans h'.split
  rcases List.append_eq_append_iff.mp heq with ⟨mid, hsince, hbefore⟩ | ⟨mid, hsince, hbefore⟩
  · exact h'.eq_of_since hsince hbefore
  · obtain ⟨rfl, rfl, rfl⟩ := h.eq_of_since hsince hbefore
    exact ⟨rfl, rfl, rfl⟩

/-- It is the latest until the task makes another call. -/
theorem noted (h : LatestCall t c since before history) {t' : Nat} {es : List (Event H Q)}
    (hes : t = t' → ∀ c', .called c' ∉ es) :
    LatestCall t c (Pool.noted t' es since) before (Pool.noted t' es history) := by
  refine ⟨?_, fun c' hmem => ?_⟩
  · rw [Pool.noted, Pool.noted, h.split, List.append_assoc]
  · rcases mem_noted.mp hmem with ⟨heq, hmem⟩ | hmem
    · exact hes heq c' hmem
    · exact h.latest c' hmem

end LatestCall

/-! ## Acquisitions -/

/-- Every acquisition that gave a handle out gave one that had not been passed on to be closed when
    it began. -/
def Upheld : History H Q → Prop
  | [] => True
  | (t, e) :: earlier =>
    (∀ k x since before, e = .returned (.handle (.ok x)) →
      LatestCall t (.acquire k) since before earlier → ∀ t', (t', .closing x) ∉ before) ∧
    Upheld earlier

theorem Upheld.of_append {later earlier : History H Q} (h : Upheld (later ++ earlier)) :
    Upheld earlier := by
  induction later with
  | nil => exact h
  | cons x later ih => exact ih h.2

theorem Upheld.noted {history : History H Q} (h : Upheld history) (t : Nat)
    {es : List (Event H Q)} (hes : ∀ r, .returned r ∉ es) : Upheld (noted t es history) := by
  induction es with
  | nil => exact h
  | cons e es ih =>
    have hrest := ih fun r hr => hes r (List.mem_cons_of_mem e hr)
    refine ⟨?_, hrest⟩
    rintro k x since before rfl
    exact absurd List.mem_cons_self (hes _)

theorem returned_not_mem_events (p : Pool H) (pt pt' : Point H) (r : PoolResult H) :
    (.returned r : Event H Q) ∉ Concert.events p pt pt' := by
  intro h
  cases shows_of_mem_events h

/-! ## All runs -/

namespace Concert

/-- Where a handle is. -/
def whereabouts [DecidableEq H] (m : Concert H Q A α) (x : H) : Whereabouts where
  slots := holding (isHandle x) m.pool
  taken := takings x m.history
  closed := closings (isHandle x) m.history
  handedBack := handedBack (isHandle x) m.history

section Runs

variable {settings : PoolSettings} {works : List (Session H Q A α)} {m : Concert H Q A α}

/-- What a section takes out of a slot is closed by the task that took it out. -/
theorem Reachable.closing_iff (h : Reachable settings works m) (t : Nat) (x : H) :
    (t, .closing x) ∈ m.history ↔ ∃ k, (t, .evicted k x) ∈ m.history := by
  refine h.induct (I := fun m => (t, .closing x) ∈ m.history ↔ ∃ k, (t, .evicted k x) ∈ m.history)
    ?_ fun m mv m' _ hm hs => ?_
  · simp [start]
  · have hnoted : ∀ es : List (Event H Q), (.closing x ∈ es ↔ ∃ k, .evicted k x ∈ es) →
        ((t, .closing x) ∈ noted mv.task es m.history ↔
          ∃ k, (t, .evicted k x) ∈ noted mv.task es m.history) := by
      intro es hes
      simp only [mem_noted, exists_or, exists_and_left, hm, hes]
    cases hs with
    | called ht => exact hnoted _ (by simp)
    | sent ht => exact hnoted _ (by simp)
    | returned ht => exact hnoted _ (by simp)
    | @ran pt next ht hfree =>
      exact hnoted _ (closing_mem_events_iff (leadsTo_advance _ mv.now mv.got pt) x)

/-- As many handles as were taken out of slots were passed on to be closed. -/
theorem Reachable.takings_eq [DecidableEq H] (h : Reachable settings works m) (x : H) :
    takings x m.history = closings (isHandle x) m.history := by
  refine h.induct (I := fun m => takings x m.history = closings (isHandle x) m.history) rfl
    fun m mv m' _ hm hs => ?_
  have hnoted : ∀ es : List (Event H Q),
      es.countP (Event.closes (isHandle x)) = es.countP (Event.takesOut (isHandle x)) →
      takings x (noted mv.task es m.history) =
        closings (isHandle x) (noted mv.task es m.history) := by
    intro es hes
    rw [takings, closings, countP_noted, countP_noted, ← closings, ← takings, hm, hes]
  cases hs with
  | called ht => exact hnoted _ rfl
  | sent ht => exact hnoted _ rfl
  | returned ht => exact hnoted _ rfl
  | @ran pt next ht hfree =>
    exact hnoted _ (countP_closes _ (leadsTo_advance _ mv.now mv.got pt) _)

/-- What is known of a task that is in a pool call: which call it is, and that it has no handle that
    was passed on to be closed before it began. -/
def Handles (history : History H Q) (t : Nat) (pt : Point H) : Prop :=
  ∃ c since before, LatestCall t c since before history ∧ pt.Serves c ∧
    ∀ k x, c = .acquire k → pt = .done (.handle (.ok x)) → ∀ t', (t', .closing x) ∉ before

theorem Handles.noted {history : History H Q} {t : Nat} {pt : Point H} (h : Handles history t pt)
    {t' : Nat} {es : List (Event H Q)} (hes : t = t' → ∀ c', .called c' ∉ es) :
    Handles (Pool.noted t' es history) t pt := by
  obtain ⟨c, since, before, hlatest, hserves, hfresh⟩ := h
  exact ⟨c, _, before, hlatest.noted hes, hserves, hfresh⟩

end Runs

section Distinct

variable [DecidableEq H] {settings : PoolSettings} {works : List (Session H Q A α)}
  {m : Concert H Q A α}

theorem brought_le_one (hdistinct : (arrivals m.history).Nodup) (x : H) :
    brought (isHandle x) m.history ≤ 1 := by
  rw [brought_eq_count]
  exact List.nodup_iff_count_le_one.mp hdistinct x

/-- A handle that lies in a slot was not passed on to be closed. -/
theorem Reachable.not_closing_of_entryAt? (h : Reachable settings works m)
    (hdistinct : (arrivals m.history).Nodup) {i : Nat} {e : PoolEntry H}
    (he : m.pool.entryAt? i = some e) : closings (isHandle e.handle) m.history = 0 := by
  have hbalance := h.balanced (isHandle e.handle)
  have hbrought := brought_le_one hdistinct e.handle
  have hi : i < m.pool.slots.length := lt_of_entryAt? (by rw [he]; exact Option.some_ne_none e)
  have hholds : 0 < holding (isHandle e.handle) m.pool := by
    refine List.countP_pos_iff.mpr ⟨_, List.getElem_mem hi, ?_⟩
    rw [← slot_eq_getElem hi, liesIn, show (m.pool.slot i).entry = some e from he]
    exact decide_eq_true rfl
  omega

/-- A handle that has not arrived was not passed on to be closed. -/
theorem Reachable.not_closing_of_not_mem (h : Reachable settings works m) {x : H}
    (hx : x ∉ arrivals m.history) : closings (isHandle x) m.history = 0 := by
  have hbalance := h.balanced (isHandle x)
  rw [brought_eq_count, List.count_eq_zero.mpr hx] at hbalance
  omega

/-- A section leaves an acquisition without a handle, or with one that is not being closed. -/
theorem Handles.advance (hreach : Reachable settings works m) {t : Nat} {pt : Point H}
    (h : Handles m.history t pt) (order : List (PoolKey × Nat)) (now : Nat) (got : Attempt H) :
    let moved := ((relist m.pool order).advance now got pt).2
    let es := events (relist m.pool order) pt moved
    (arrivals (Pool.noted t es m.history)).Nodup →
      Handles (Pool.noted t es m.history) t moved := by
  intro moved es hdistinct
  obtain ⟨c, since, before, hlatest, hserves, hfresh⟩ := h
  rw [arrivals_noted] at hdistinct
  have hleads : pt.LeadsTo (relist m.pool order) moved := leadsTo_advance _ now got pt
  refine ⟨c, _, before, hlatest.noted fun _ c' => called_not_mem_events _ _ _ c', hleads.serves hserves,
    ?_⟩
  rintro k x rfl hdone t' hmem
  have hclosing : closings (isHandle x) m.history = 0 → False := fun hzero => by
    refine closing_not_mem x hzero t' ?_
    rw [hlatest.split]
    exact List.mem_append_right _ (List.mem_cons_of_mem _ hmem)
  rcases acquisition_cases hserves hdone with
    hpt | ⟨i, e, -, -, he, rfl⟩ | ⟨i, target, attempt, rfl, rfl⟩
  · exact hfresh k x rfl hpt t' hmem
  · rw [relist_entryAt?] at he
    exact hclosing (hreach.not_closing_of_entryAt? hdistinct.of_append_right he)
  · refine hclosing (hreach.not_closing_of_not_mem fun hx => ?_)
    have hopened : (.opened k target x : Event H Q) ∈ es := List.mem_cons_of_mem _ List.mem_cons_self
    exact List.disjoint_of_nodup_append hdistinct (List.mem_filterMap.mpr ⟨_, hopened, rfl⟩) hx

/-- No acquisition gives a handle out that was passed on to be closed before it began. -/
theorem Reachable.upheld (h : Reachable settings works m) :
    (arrivals m.history).Nodup →
      (∀ t pt, m.point? t = some pt → Handles m.history t pt) ∧ Upheld m.history := by
  refine h.induct (I := fun m => (arrivals m.history).Nodup →
    (∀ t pt, m.point? t = some pt → Handles m.history t pt) ∧ Upheld m.history) ?_
    fun m mv m' hreach hm hs => ?_
  · intro _
    refine ⟨fun t pt hpt => ?_, trivial⟩
    rw [point?_start] at hpt
    cases hpt
  · obtain ⟨-, -, hothers⟩ := hs.history
    -- what is noted now leaves the other tasks as they were
    have hnoted : ∀ es : List (Event H Q), (arrivals (noted mv.task es m.history)).Nodup →
        ((∀ t pt, m.point? t = some pt → Handles m.history t pt) ∧ Upheld m.history) ∧
        ((∀ pt, m'.point? mv.task = some pt → Handles (noted mv.task es m.history) mv.task pt) →
          ∀ t pt, m'.point? t = some pt → Handles (noted mv.task es m.history) t pt) := by
      intro es hdistinct
      rw [arrivals_noted] at hdistinct
      have hbefore := hm hdistinct.of_append_right
      refine ⟨hbefore, fun hmover t pt hpt => ?_⟩
      by_cases ht : mv.task = t
      · exact ht ▸ hmover pt (ht ▸ hpt)
      · rw [point?, hothers t ht] at hpt
        exact (hbefore.1 t pt hpt).noted fun heq => absurd heq.symm ht
    cases hs with
    | @called c next ht =>
      intro hdistinct
      obtain ⟨⟨hhandles, hupheld⟩, hall⟩ := hnoted [.called c] hdistinct
      refine ⟨hall fun pt hpt => ?_, hupheld.noted mv.task (by simp)⟩
      rw [point?_put m (List.getElem?_eq_some_iff.mp ht).1, if_pos rfl] at hpt
      obtain rfl : Point.start c = pt := Option.some.inj hpt
      refine ⟨c, [], m.history, ⟨rfl, fun _ => List.not_mem_nil⟩, rfl, fun k x hc hdone => ?_⟩
      cases hdone
    | @sent y q next ht =>
      intro hdistinct
      obtain ⟨⟨hhandles, hupheld⟩, hall⟩ := hnoted [.sent y q] hdistinct
      refine ⟨hall fun pt hpt => ?_, hupheld.noted mv.task (by simp)⟩
      rw [point?_put m (List.getElem?_eq_some_iff.mp ht).1, if_pos rfl] at hpt
      cases hpt
    | @returned r next ht =>
      intro hdistinct
      obtain ⟨⟨hhandles, hupheld⟩, hall⟩ := hnoted [.returned r] hdistinct
      refine ⟨hall fun pt hpt => ?_, fun k x since before hr hlatest => ?_, hupheld⟩
      · rw [point?_put m (List.getElem?_eq_some_iff.mp ht).1, if_pos rfl] at hpt
        cases hpt
      · cases hr
        obtain ⟨c, since', before', hlatest', -, hfresh⟩ := hhandles mv.task _ (point?_of_calling ht)
        obtain ⟨rfl, -, rfl⟩ := hlatest.unique hlatest'
        exact hfresh k x rfl rfl
    | @ran pt next ht hfree =>
      intro hdistinct
      obtain ⟨⟨hhandles, hupheld⟩, hall⟩ := hnoted _ hdistinct
      have hpt := point?_of_calling ht
      refine ⟨hall fun pt' hpt' => ?_, hupheld.noted mv.task (returned_not_mem_events _ _ _)⟩
      obtain rfl := Option.some.inj ((point?_section?_self hpt next).symm.trans hpt')
      exact (hhandles mv.task pt hpt).advance hreach mv.order mv.now mv.got hdistinct

end Distinct

/-! ## Custody -/

/-- No handle is lost, and none is closed twice. -/
structure Custody [DecidableEq H] (m : Concert H Q A α) : Prop where
  /-- A handle that arrived lies in one slot, or was taken out once and passed on to be closed once,
      or was handed back once. -/
  placed : ∀ x ∈ arrivals m.history,
    m.whereabouts x = .pooled ∨ m.whereabouts x = .closing ∨ m.whereabouts x = .returned
  /-- Who takes a handle out passes it on to be closed, and nobody else does. -/
  taker : ∀ t x, (t, .closing x) ∈ m.history ↔ ∃ k, (t, .evicted k x) ∈ m.history
  /-- No acquisition gives a handle out that was passed on to be closed before it began. -/
  fresh : ∀ t k x later since before earlier,
    m.history = later ++ (t, .returned (.handle (.ok x))) :: earlier →
    LatestCall t (.acquire k) since before earlier → ∀ t', (t', .closing x) ∉ before

/-- In every state that tasks can come to no handle is lost, and none is closed twice, as long as no
    handle arrives twice. -/
theorem Reachable.custody [DecidableEq H] {settings : PoolSettings}
    {works : List (Session H Q A α)} {m : Concert H Q A α} (h : Reachable settings works m)
    (hdistinct : (arrivals m.history).Nodup) : m.Custody := by
  constructor
  case placed =>
    intro x hx
    have hbalance := h.balanced (isHandle x)
    rw [brought_eq_count, List.count_eq_one_of_mem hdistinct hx] at hbalance
    have htakings := h.takings_eq x
    simp only [whereabouts, Whereabouts.pooled, Whereabouts.closing, Whereabouts.returned,
      Whereabouts.mk.injEq]
    omega
  case taker => exact h.closing_iff
  case fresh =>
    intro t k x later since before earlier hsplit hlatest
    have hupheld := (h.upheld hdistinct).2
    rw [hsplit] at hupheld
    exact hupheld.of_append.1 k x since before rfl hlatest

/-- A connection is opened, replaced and evicted, and another one is opened while the first eviction
    is still closing. -/
theorem Reachable.custody_evicted :
    ∃ (k : PoolKey) (m : Concert Nat Unit Unit (PoolResult Nat)),
      Reachable ⟨0, 0, 0, 1, 0⟩ [Session.call (.acquire k), Session.call (.replace k 10),
        Session.call (.remove k), Session.call (.acquire k)] m ∧
      arrivals m.history = [3, 10, 0] ∧ m.whereabouts 0 = .returned ∧
      m.whereabouts 10 = .closing ∧ m.whereabouts 3 = .pooled ∧ m.Custody := by
  let k : PoolKey := ⟨.keyValue, "localhost", 6379, none, none, none, none⟩
  let turn (t : Nat) : Move Nat Unit := ⟨t, 0, .opened t, (), []⟩
  -- the eviction begins to close the handle that was put in, and does not come to its end
  let mvs := [0, 0, 0, 0, 0, 0, 1, 1, 1, 1, 2, 2, 2, 2, 2, 2, 3, 3, 3, 3, 3, 3, 3].map turn
  have hplay : ((start ⟨0, 0, 0, 1, 0⟩ [Session.call (.acquire k), Session.call (.replace k 10),
      Session.call (.remove k), Session.call (.acquire k)]).play? mvs).any (fun m =>
        arrivals m.history = [3, 10, 0] && m.whereabouts 0 = .returned &&
        m.whereabouts 10 = .closing && m.whereabouts 3 = .pooled :
          Concert Nat Unit Unit (PoolResult Nat) → Bool) = true := by decide +kernel
  obtain ⟨m, hrun, hfacts⟩ := (Option.any_eq_true _ _).mp hplay
  simp only [Bool.and_eq_true, decide_eq_true_eq] at hfacts
  obtain ⟨⟨⟨harrivals, hfirst⟩, hsecond⟩, hthird⟩ := hfacts
  have hreach : Reachable _ _ m := ⟨mvs, hrun⟩
  have hdistinct : (arrivals m.history).Nodup := by
    rw [harrivals]
    decide
  exact ⟨k, m, hreach, harrivals, hfirst, hsecond, hthird, hreach.custody hdistinct⟩

end Concert

end Polyshell.Pool
