/-
  A pool keeps one connection for each key, whatever comes between whatever.

  1. **The invariant** — `Concert.Sound`: the books of the pool are kept, every task has what it
     relies on, and no two tasks keep one lock.

  2. **One step** — a step of a task is an aside of its session, which no other task can notice, or a
     section of a pool call (`Stepped.cases`).  A section runs under a lock that no other task keeps, so
     it leaves alone what the others rely on (`Sound.step?`).

  3. **All runs** — the invariant holds in every state that tasks can come to (`Reachable.sound`), and
     `Reachable.single_connection` reads off what it says about a key: one slot, one attempt to connect,
     one connection more than were evicted, one handle for all who acquire it meanwhile.
-/
import Polyshell.Proofs.Pool.Books
import Polyshell.Proofs.Pool.Steps

namespace Polyshell.Pool

variable {H Q A α : Type}

namespace Concert

/-! ## Steps -/

/-- A step is an aside of a session, in which a call begins at most, or a section of a call. -/
theorem Stepped.cases {m m' : Concert H Q A α} {mv : Move H A} (h : Stepped m mv m') :
    (∃ task e, m' = m.put mv.task task [e] ∧ mv.task < m.tasks.length ∧ e.isQuiet = true ∧
      ∀ pt, task.point? = some pt → ∃ c, pt = .start c) ∨
    ∃ pt next, m' = m.section? mv pt next ∧ m.point? mv.task = some pt ∧
      ∀ l, pt.waits m.pool.settings = .lock l → m.keeps mv.task l = false := by
  have hlt : ∀ {task}, m.tasks[mv.task]? = some task → mv.task < m.tasks.length := fun htask =>
    (List.getElem?_eq_some_iff.mp htask).1
  cases h with
  | @called c next ht =>
    exact Or.inl ⟨_, _, rfl, hlt ht, rfl, fun pt hpt => ⟨c, (Option.some.inj hpt).symm⟩⟩
  | sent ht => exact Or.inl ⟨_, _, rfl, hlt ht, rfl, fun pt hpt => by cases hpt⟩
  | returned ht => exact Or.inl ⟨_, _, rfl, hlt ht, rfl, fun pt hpt => by cases hpt⟩
  | ran ht hfree => exact Or.inr ⟨_, _, rfl, point?_of_calling ht, hfree⟩

/-- A step notes something, and leaves all tasks but one alone. -/
theorem Stepped.history {m m' : Concert H Q A α} {mv : Move H A} (h : Stepped m mv m') :
    ∃ es, m'.history = noted mv.task es m.history ∧
      ∀ t, mv.task ≠ t → m'.tasks[t]? = m.tasks[t]? := by
  have hput : ∀ (p : Pool H) (task : Task H Q A α) (es : List (Event H Q)) t, mv.task ≠ t →
      ({ m with pool := p }.put mv.task task es).tasks[t]? = m.tasks[t]? := fun p task es t ht =>
    List.getElem?_set_ne ht
  cases h with
  | called ht => exact ⟨_, rfl, hput m.pool _ _⟩
  | sent ht => exact ⟨_, rfl, hput m.pool _ _⟩
  | returned ht => exact ⟨_, rfl, hput m.pool _ _⟩
  | ran ht hfree => exact ⟨_, rfl, hput _ _ _⟩

/-! ## The invariant -/

/-- What holds in every state that tasks can come to. -/
structure Sound (m : Concert H Q A α) : Prop where
  books : Books m.history m.pool
  /-- Every task has what it relies on. -/
  fits : ∀ t pt, m.point? t = some pt → pt.Fits (Made m.history) m.pool
  /-- No two tasks keep one lock. -/
  exclusive : ∀ t t' pt pt' l, m.point? t = some pt → m.point? t' = some pt' →
    pt.holds = some l → pt'.holds = some l → t = t'

theorem start_sound (settings : PoolSettings) (works : List (Session H Q A α)) :
    (start settings works).Sound := by
  have hmade : ∀ k i, ¬ Made ([] : History H Q) k i := fun k i ⟨_, h⟩ => absurd h List.not_mem_nil
  have hpoint : ∀ t, (start settings works).point? t = none := by
    intro t
    rw [point?, start, List.getElem?_map]
    cases works[t]? <;> rfl
  refine ⟨⟨Orderly.empty settings hmade, trivial, fun k x => ?_⟩, fun t pt h => ?_,
    fun t _ pt _ _ h => ?_⟩
  · constructor
    · exact fun h => absurd h (Option.some_ne_none x ∘ Eq.symm)
    · rintro ⟨i, h, -⟩
      exact absurd h (hmade k i)
  · rw [hpoint t] at h
    cases h
  · rw [hpoint t] at h
    cases h

namespace Sound

variable {m : Concert H Q A α}

/-- A lock that a section runs under is kept by no other task. -/
theorem eq_of_under (h : m.Sound) {t t' : Nat} {pt pt' : Point H} {l : Lock}
    (hpt : m.point? t = some pt)
    (hfree : ∀ l, pt.waits m.pool.settings = .lock l → m.keeps t l = false)
    (hu : pt.Under m.pool.settings l) (hpt' : m.point? t' = some pt') (hl : pt'.holds = some l) :
    t = t' := by
  rcases hu with hu | hu
  · exact h.exclusive t t' pt pt' l hpt hpt' hu hl
  · by_contra hne
    exact holds_ne_of_keeps (hfree l hu) (Ne.symm hne) hpt' hl

/-- What a session does beside its pool calls is noticed by no other task. -/
theorem aside (h : m.Sound) {t : Nat} (ht : t < m.tasks.length) {task : Task H Q A α}
    (htask : ∀ pt, task.point? = some pt → ∃ c, pt = .start c) {e : Event H Q}
    (he : e.isQuiet = true) : (m.put t task [e]).Sound := by
  have hes : ∀ e' ∈ [e], e'.isQuiet = true := List.forall_mem_singleton.mpr he
  have hstart : ∀ t' pt, (m.put t task [e]).point? t' = some pt →
      (∃ c, pt = .start c) ∨ m.point? t' = some pt := by
    intro t' pt hpt
    rw [point?_put m ht] at hpt
    split at hpt
    · exact Or.inl (htask pt hpt)
    · exact Or.inr hpt
  refine ⟨h.books.quiet rfl (List.Perm.refl _) t hes, fun t' pt hpt => ?_,
    fun t₁ t₂ pt₁ pt₂ l hpt₁ hpt₂ hl₁ hl₂ => ?_⟩
  · rcases hstart t' pt hpt with ⟨c, rfl⟩ | hpt
    · trivial
    · exact (h.fits t' pt hpt).frame (fun k i hm => made_noted.mpr (Or.inr hm)) fun _ _ => rfl
  · rcases hstart t₁ pt₁ hpt₁ with ⟨c, rfl⟩ | hpt₁
    · cases hl₁
    · rcases hstart t₂ pt₂ hpt₂ with ⟨c, rfl⟩ | hpt₂
      · cases hl₂
      · exact h.exclusive t₁ t₂ pt₁ pt₂ l hpt₁ hpt₂ hl₁ hl₂

/-- A section of a call keeps the invariant. -/
theorem section? (h : m.Sound) {mv : Move H A} {pt : Point H}
    (next : PoolResult H → Session H Q A α) (hpt : m.point? mv.task = some pt)
    (hfree : ∀ l, pt.waits m.pool.settings = .lock l → m.keeps mv.task l = false) :
    (m.section? mv pt next).Sound := by
  have ht := lt_of_point? hpt
  have hnothing : ∀ e ∈ ([] : List (Event H Q)), e.isQuiet = true := fun _ he =>
    absurd he List.not_mem_nil
  -- the section finds the table in another order, and nothing else different
  have hlisted : Books m.history (relist m.pool mv.order) :=
    h.books.quiet relist_slots relist_links mv.task hnothing
  have hfits : ∀ t pt, m.point? t = some pt → pt.Fits (Made m.history) (relist m.pool mv.order) :=
    fun t pt hpt => (h.fits t pt hpt).frame (fun _ _ hm => hm) fun i _ => by
      rw [slot, slot, relist_slots]
  have hunder : ∀ {l}, pt.Under (relist m.pool mv.order).settings l → ∀ t' pt',
      m.point? t' = some pt' → pt'.holds = some l → mv.task = t' := by
    intro l hu t' pt' hpt' hl
    rw [relist_settings] at hu
    exact h.eq_of_under hpt hfree hu hpt' hl
  have hpool : (m.section? mv pt next).pool =
      ((relist m.pool mv.order).advance mv.now mv.got pt).1 := rfl
  have hhistory : (m.section? mv pt next).history = noted mv.task (events (relist m.pool mv.order)
      pt ((relist m.pool mv.order).advance mv.now mv.got pt).2) m.history := rfl
  have hpoint : ∀ t, (m.section? mv pt next).point? t = if mv.task = t then
      some ((relist m.pool mv.order).advance mv.now mv.got pt).2 else m.point? t :=
    point?_section? m mv next ht
  generalize relist m.pool mv.order = p at *
  have howns : ∀ k i, Made m.history k i → Made (m.section? mv pt next).history k i := by
    intro k i hm
    rw [hhistory]
    exact made_noted.mpr (Or.inr hm)
  have hbooks : Books (m.section? mv pt next).history (m.section? mv pt next).pool := by
    rw [hhistory, hpool]
    exact hlisted.of_section (hfits mv.task pt hpt) (advance_section p mv.now mv.got pt) mv.task
  refine ⟨hbooks, fun t pt' hpt' => ?_, fun t₁ t₂ pt₁ pt₂ l hpt₁ hpt₂ hl₁ hl₂ => ?_⟩
  · rw [hpoint] at hpt'
    rw [hpool]
    split at hpt'
    · cases hpt'
      refine fits_advance hlisted.orderly (hfits mv.task pt hpt) howns ?_ mv.now mv.got
      rintro k rfl hk
      rw [hhistory, events_link p hk]
      exact made_noted.mpr (Or.inl List.mem_cons_self)
    · next hne =>
      have hfit := hfits t pt' hpt'
      refine hfit.frame howns fun i hi => ?_
      obtain ⟨k, ho⟩ := hfit.owned hi
      exact slot_advance p mv.now mv.got (hlisted.orderly.made k i ho) fun hu =>
        hne (hunder hu t pt' hpt' hi)
  · rw [hpoint] at hpt₁ hpt₂
    split at hpt₁
    · next h₁ =>
      split at hpt₂
      · next h₂ => exact h₁.symm.trans h₂
      · cases hpt₁
        exact h₁.symm.trans (hunder (under_of_holds_advance p mv.now mv.got hl₁) t₂ pt₂ hpt₂ hl₂)
    · split at hpt₂
      · next h₂ =>
        cases hpt₂
        exact (hunder (under_of_holds_advance p mv.now mv.got hl₂) t₁ pt₁ hpt₁ hl₁).symm.trans h₂
      · exact h.exclusive t₁ t₂ pt₁ pt₂ l hpt₁ hpt₂ hl₁ hl₂

/-- A step keeps the invariant. -/
theorem step? (h : m.Sound) {mv : Move H A} {m' : Concert H Q A α} (hs : Stepped m mv m') :
    m'.Sound := by
  rcases hs.cases with ⟨task, e, rfl, ht, he, htask⟩ | ⟨pt, next, rfl, hpt, hfree⟩
  · exact h.aside ht htask he
  · exact h.section? next hpt hfree

end Sound

/-! ## All runs -/

/-- The invariant holds in every state that tasks can come to. -/
theorem Reachable.sound {settings : PoolSettings} {works : List (Session H Q A α)}
    {m : Concert H Q A α} (h : Reachable settings works m) : m.Sound := by
  exact h.induct (start_sound settings works) fun _ _ _ _ hm hs => hm.step? hs

/-- A task waits for the connector on behalf of a key. -/
def Connecting (m : Concert H Q A α) (t : Nat) (k : PoolKey) : Prop :=
  ∃ i target attempt, m.point? t = some (.connect k i target attempt)

/-- A key has one connection. -/
structure OneConnection (m : Concert H Q A α) (k : PoolKey) : Prop where
  /-- At most one slot of the key was not given up. -/
  active : ∀ i j, Made m.history k i → Made m.history k j → m.pool.isRetired i = false →
    m.pool.isRetired j = false → i = j
  /-- It is the one that the table lists. -/
  listed : ∀ i, Made m.history k i → m.pool.isRetired i = false → m.pool.slotOf? k = some i
  /-- A slot that the table does not list holds no connection. -/
  unlisted : ∀ i, Made m.history k i → m.pool.slotOf? k ≠ some i → m.pool.entryAt? i = none
  /-- At most one slot of the key holds a connection. -/
  holding : ∀ i j, Made m.history k i → Made m.history k j → m.pool.entryAt? i ≠ none →
    m.pool.entryAt? j ≠ none → i = j
  /-- At most one task connects. -/
  connecting : ∀ t t', m.Connecting t k → m.Connecting t' k → t = t'
  /-- At most one connection more was opened than evicted. -/
  opened : opens k m.history ≤ evictions k m.history + 1
  /-- All acquisitions between two evictions, with nothing replaced, get the same handle. -/
  acquired : ∀ later segment earlier, m.history = later ++ (segment ++ earlier) →
    (∀ x ∈ segment, x.2.evicts k = false ∧ x.2.replaces k = false) → ∀ t t' h h',
    (t, Event.acquired k h) ∈ segment → (t', Event.acquired k h') ∈ segment → h = h'

theorem Sound.oneConnection {m : Concert H Q A α} (h : m.Sound) (k : PoolKey) :
    m.OneConnection k := by
  have ho := h.books.orderly
  constructor
  case active =>
    exact fun i j hi hj hri hrj => ho.eq_of_mem (ho.active k i hi hri) (ho.active k j hj hrj)
  case listed => exact fun i hi hr => ho.slotOf?_eq_some (ho.active k i hi hr)
  case unlisted =>
    intro i hi hslot
    by_contra he
    exact hslot (ho.slotOf?_eq_some (ho.kept k i hi he))
  case holding =>
    exact fun i j hi hj hei hej => ho.eq_of_mem (ho.kept k i hi hei) (ho.kept k j hj hej)
  case connecting =>
    rintro t t' ⟨i, target, attempt, hpt⟩ ⟨j, target', attempt', hpt'⟩
    obtain ⟨hi, hri, -⟩ := h.fits t _ hpt
    obtain ⟨hj, hrj, -⟩ := h.fits t' _ hpt'
    -- both stand in the one slot that the table lists, under its lock
    obtain rfl := ho.eq_of_mem (ho.active k i hi hri) (ho.active k j hj hrj)
    exact h.exclusive t t' _ _ (.slot i) hpt hpt' rfl rfl
  case opened => exact h.books.lawful.opens_le k
  case acquired =>
    exact fun later segment earlier he hs t t' x x' hx hx' =>
      h.books.lawful.acquired_eq he hs hx hx'

/-- In every state that tasks can come to, every slot has one key, and every key one connection. -/
theorem Reachable.single_connection {settings : PoolSettings} {works : List (Session H Q A α)}
    {m : Concert H Q A α} (h : Reachable settings works m) :
    (∀ i, i < m.pool.slots.length → ∃! k, Made m.history k i) ∧ ∀ k, m.OneConnection k := by
  have hs := h.sound
  refine ⟨fun i hi => ?_, fun k => hs.oneConnection k⟩
  obtain ⟨k, hk⟩ := hs.books.orderly.owned i hi
  exact ⟨k, hk, fun k' hk' => hs.books.orderly.unique k' k i hk' hk⟩

/-- Two tasks acquire a key, a third evicts its connection, and a fourth has it opened again. -/
theorem Reachable.single_connection_evicted :
    ∃ (k : PoolKey) (m : Concert Nat Unit Unit (PoolResult Nat)),
      Reachable ⟨0, 0, 0, 1, 0⟩ [Session.call (.acquire k), Session.call (.acquire k),
        Session.call (.remove k), Session.call (.acquire k)] m ∧
      opens k m.history = 2 ∧ evictions k m.history = 1 ∧ m.pool.slots.length = 2 ∧
      (∃! k, Made m.history k 0) ∧ m.OneConnection k := by
  let k : PoolKey := ⟨.keyValue, "localhost", 6379, none, none, none, none⟩
  let turn (t : Nat) : Move Nat Unit := ⟨t, 0, .opened t, (), []⟩
  -- the first connects while the second waits; after the eviction the fourth finds no slot
  let mvs := [0, 0, 0, 1, 1, 1, 0, 0, 0, 1, 2, 2, 2, 2, 2, 2, 3, 3, 3, 3, 3, 3].map turn
  have hplay : ((start ⟨0, 0, 0, 1, 0⟩ [Session.call (.acquire k), Session.call (.acquire k),
      Session.call (.remove k), Session.call (.acquire k)]).play? mvs).any (fun m =>
        opens k m.history = 2 && evictions k m.history = 1 && m.pool.slots.length = 2 :
          Concert Nat Unit Unit (PoolResult Nat) → Bool) = true := by decide +kernel
  obtain ⟨m, hrun, hcounts⟩ := (Option.any_eq_true _ _).mp hplay
  rw [Bool.and_eq_true, Bool.and_eq_true, decide_eq_true_eq, decide_eq_true_eq,
    decide_eq_true_eq] at hcounts
  obtain ⟨⟨hopens, hevictions⟩, hslots⟩ := hcounts
  have hreach : Reachable _ _ m := ⟨mvs, hrun⟩
  obtain ⟨howner, hone⟩ := hreach.single_connection
  exact ⟨k, m, hreach, hopens, hevictions, hslots, howner 0 (by omega), hone k⟩

end Concert

end Polyshell.Pool
