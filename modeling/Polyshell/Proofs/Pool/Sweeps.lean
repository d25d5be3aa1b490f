/-
  What a sweep closes, and what it leaves.

  1. **The record of closed connections** — a world in which every connection that is closed is
     written down (`Outside.collecting`); what it notes of one call is what that closes (`closes`).

  2. **Uses** — `uses` lists when the connections of keys were used in a run.  A connection carries
     the time of its key's last use, because each call either uses the key or leaves its connection
     as it was, if it leaves it at all (`Contents.Becomes.entry`, `lastUsed_of_entry`).

  3. **A sweep** — what a sweep closes are the overdue connections, and the others stay
     (`Tidy.sweepsAt`).

  4. **Sweeps in a history** — so, in any state of a pool, it closes exactly the connections whose
     last use is too long ago (`sweep_closes_idle`).
-/
import Polyshell.Proofs.Pool.Dials

namespace Polyshell

variable {H σ : Type}

/-! ## The record of closed connections -/

/-- A world that writes down which connections are closed, the latest first. -/
def Outside.collecting (o : Outside σ H) : Outside (List H × σ) H where
  clock w := o.clock w.2
  connect target w := ((o.connect target w.2).1, w.1, (o.connect target w.2).2)
  pause millis w := (w.1, o.pause millis w.2)
  close h w := (h :: w.1, o.close h w.2)

namespace Pool

/-- The handles that are closed in the course of a call, one after another. -/
def closes (o : Outside σ H) (p : Pool H) (c : PoolCall H) (s : σ) : List H :=
  (p.perform o.collecting c ([], s)).2.2.1.reverse

/-- Writing the closed connections down changes nothing. -/
theorem perform_collecting (o : Outside σ H) (p : Pool H) (c : PoolCall H) (record : List H)
    (s : σ) : (p.perform o.collecting c (record, s)).1 = (p.perform o c s).1 ∧
      (p.perform o.collecting c (record, s)).2.1 = (p.perform o c s).2.1 ∧
      (p.perform o.collecting c (record, s)).2.2.2 = (p.perform o c s).2.2 :=
  have hshows : o.collecting.Shows o Prod.snd :=
    ⟨fun _ => rfl, fun _ _ => rfl, fun _ _ => rfl, fun _ _ => rfl, fun _ _ => rfl⟩
  drive_view hshows p.sections p (.start c) (record, s)

/-- Closing some connections writes their handles down. -/
theorem foldl_close_collecting (o : Outside σ H) (gone : List (PoolKey × H)) (record : List H)
    (s : σ) : (gone.foldl (fun w y => o.collecting.close y.2 w) (record, s)).1 =
      (gone.map Prod.snd).reverse ++ record := by
  induction gone generalizing record s with
  | nil => rfl
  | cons y gone ih =>
    rw [List.foldl_cons, List.map_cons, List.reverse_cons, List.append_assoc]
    exact ih (y.2 :: record) (o.close y.2 s)

/-! ## Uses -/

/-- The use that a call is, and the time at which it ends. -/
def use? (o : Outside σ H) (p : Pool H) (c : PoolCall H) (s : σ) : Option (PoolKey × Nat) :=
  (usedKey? c (p.perform o c s).1).map fun k => (k, o.clock (p.perform o c s).2.2)

/-- When keys were used in a run, one after another. -/
def uses (o : Outside σ H) : Pool H → List (PoolCall H) → σ → List (PoolKey × Nat)
  | _, [], _ => []
  | p, c :: calls, s =>
    (use? o p c s).toList ++ uses o (p.perform o c s).2.1 calls (p.perform o c s).2.2

/-- A key was used at that time, and not again behind it. -/
def LastUsed (log : List (PoolKey × Nat)) (k : PoolKey) (t : Nat) : Prop :=
  ∃ earlier later, log = earlier ++ (k, t) :: later ∧ ∀ x ∈ later, x.1 ≠ k

theorem lastUsed_concat (log : List (PoolKey × Nat)) (k : PoolKey) (t : Nat) :
    LastUsed (log ++ [(k, t)]) k t :=
  ⟨log, [], rfl, fun _ hx => absurd hx List.not_mem_nil⟩

theorem LastUsed.append {log : List (PoolKey × Nat)} {k : PoolKey} {t : Nat}
    (h : LastUsed log k t) {more : List (PoolKey × Nat)} (hmore : ∀ x ∈ more, x.1 ≠ k) :
    LastUsed (log ++ more) k t := by
  obtain ⟨earlier, later, rfl, hlater⟩ := h
  refine ⟨earlier, later ++ more, by rw [List.append_assoc, List.cons_append], fun x hx => ?_⟩
  rcases List.mem_append.mp hx with hx | hx
  · exact hlater x hx
  · exact hmore x hx

section Uses

variable (o : Outside σ H)

theorem uses_concat (calls : List (PoolCall H)) (c : PoolCall H) (p : Pool H) (s : σ) :
    uses o p (calls ++ [c]) s = uses o p calls s ++
      (use? o (performAll o p calls s).2.1 c (performAll o p calls s).2.2).toList := by
  induction calls generalizing p s with
  | nil => exact List.append_nil _
  | cons c' calls ih =>
    rw [List.cons_append, uses, uses, ih, List.append_assoc]
    rfl

/-- There are no connections in a pool that was shut down. -/
def Contents.Spent (x : Contents H) : Prop := x.closed = true → ∀ k, x.entry k = none

/-- A pool that was shut down is given no connections, and one that is shut down loses all that it
    has. -/
theorem Contents.Becomes.spent {x x' : Contents H} {used : Option PoolKey} {now : Nat}
    (h : x.Becomes used now x') (hspent : x.Spent) (hlisted : ∀ k, k ∉ x.keys → x.entry k = none) :
    x'.Spent := by
  cases h with
  | used k y key live closed entry settings =>
    intro hclosed
    rw [closed] at hclosed
    rcases live with hopen | hlive
    · cases hclosed.symm.trans hopen
    · exact absurd (hspent hclosed k) hlive
  | less gone entry absent closed settings =>
    intro hclosed k
    rw [entry]
    show (if gone k then none else x.entry k) = none
    split
    · rfl
    · next hkept =>
      rcases closed hclosed with hclosed | hall
      · exact hspent hclosed k
      · exact hlisted k fun hk => hkept (hall k hk)

/-- The connection of a key was used by the last call, or that left it alone. -/
theorem Contents.Becomes.entry {x x' : Contents H} {used : Option PoolKey} {now : Nat}
    (h : x.Becomes used now x') (hspent : x.Spent) {k : PoolKey} {e : PoolEntry H}
    (he : x'.entry k = some e) :
    used = some k ∧ e.lastUsed = now ∨ used ≠ some k ∧ x.entry k = some e := by
  cases h with
  | used k' y key live closed entry settings =>
    rw [entry] at he
    by_cases hk : k = k'
    · have hnew := Option.some.inj ((if_pos hk).symm.trans he)
      exact Or.inl ⟨hk ▸ key, hnew ▸ rfl⟩
    · have hother : used ≠ some k := fun hused => hk (Option.some.inj (hused.symm.trans key))
      exact Or.inr ⟨hother, (if_neg hk).symm.trans he⟩
  | less gone entry absent closed settings =>
    rw [entry] at he
    have hkept : x.entry k = some e := by
      change (if gone k then none else x.entry k) = some e at he
      split at he
      · cases he
      · exact he
    refine Or.inr ⟨fun hused => ?_, hkept⟩
    rcases absent k hused with hclosed | hnone
    · cases (hspent hclosed k).symm.trans hkept
    · cases hnone.symm.trans hkept

/-- In a run every connection carries the time of its key's last use. -/
theorem lastUsed_of_entry (settings : PoolSettings) (calls : List (PoolCall H)) (s : σ) :
    (performAll o (.empty settings) calls s).2.1.contents.Spent ∧
      ∀ k e, (performAll o (.empty settings) calls s).2.1.entryOf? k = some e →
        LastUsed (uses o (.empty settings) calls s) k e.lastUsed := by
  induction calls using List.reverseRecOn with
  | nil => exact ⟨fun _ _ => rfl, nofun⟩
  | append_singleton calls c ih =>
    obtain ⟨hspent, hlast⟩ := ih
    obtain ⟨owns, htidy⟩ := (Tidy.empty settings).performAll o calls s
    generalize hreached : (performAll o (.empty settings) calls s).2 = reached at *
    obtain ⟨p, w⟩ := reached
    have hbecomes := htidy.becomes_perform o c w
    rw [performAll_concat, uses_concat, hreached, use?]
    refine ⟨hbecomes.spent hspent fun k hk => entryOf?_of_not_mem_keys hk, fun k e he => ?_⟩
    rcases hbecomes.entry hspent he with ⟨hkey, htime⟩ | ⟨hkey, hentry⟩
    · rw [hkey, htime]
      exact lastUsed_concat _ _ _
    · refine (hlast k e hentry).append fun x hx => ?_
      obtain ⟨k', hk', rfl⟩ := Option.map_eq_some_iff.mp (Option.mem_toList.mp hx)
      rintro rfl
      exact hkey hk'

end Uses

/-! ## A sweep -/

/-- The connections, in the order of the table. -/
def Contents.entries (x : Contents H) : List (PoolKey × PoolEntry H) :=
  x.keys.filterMap fun k => (x.entry k).map fun e => (k, e)

/-- The connections of a pool with their keys, in the order of its table. -/
def entries (p : Pool H) : List (PoolKey × PoolEntry H) :=
  p.links.filterMap fun l => (p.entryAt? l.2).map fun e => (l.1, e)

/-- Whether the last use of a connection lies back for longer than connections may lie unused. -/
def isOverdue (p : Pool H) (now : Nat) (x : PoolKey × PoolEntry H) : Bool :=
  x.2.lastUsed + p.settings.idleTtl < now

section Sweep

variable {owns : PoolKey → Nat → Prop} {p : Pool H} (o : Outside σ H)

theorem Orderly.entries_contents (h : Orderly owns p) : p.contents.entries = p.entries := by
  rw [Contents.entries, contents, List.filterMap_map, entries]
  refine List.filterMap_congr fun l hl => ?_
  show (p.entryOf? l.1).map _ = _
  rw [h.entryOf?_of_mem hl]

theorem Contents.mem_entries {x : Contents H} {y : PoolKey × PoolEntry H} :
    y ∈ x.entries ↔ y.1 ∈ x.keys ∧ x.entry y.1 = some y.2 := by
  rw [entries, List.mem_filterMap]
  constructor
  · rintro ⟨k, hk, hy⟩
    obtain ⟨e, he, rfl⟩ := Option.map_eq_some_iff.mp hy
    exact ⟨hk, he⟩
  · rintro ⟨hk, he⟩
    exact ⟨y.1, hk, by rw [he]; rfl⟩

theorem Contents.entries_without (x : Contents H) (gone : PoolKey → Bool) :
    (x.without gone).entries = x.entries.filter fun y => !gone y.1 := by
  rw [entries, entries, without, List.filterMap_filter, List.filter_filterMap]
  refine List.filterMap_congr fun k _ => ?_
  cases hgone : gone k <;> cases hentry : x.entry k <;> simp [Option.filter, hgone, hentry]

/-- The number of live connections. -/
theorem Tidy.perform_size (h : Tidy owns p) (s : σ) :
    (p.perform o .size s).1 = .number p.entries.length := by
  have hmirrored := congrArg Prod.fst (h.mirrors_size o s).2
  rw [← hmirrored, ← h.orderly.entries_contents, Contents.entries,
    List.length_filterMap_eq_countP]
  simp only [Option.isSome_map]
  rfl

/-- An eviction takes slots out of the table, and puts none into it. -/
theorem links_giveUp (e : Eviction) (rest : List (PoolKey × Nat)) (p : Pool H) (s : σ) :
    ∀ l ∈ (giveUp o e rest p s).2.1.links, l ∈ p.links := by
  induction rest generalizing p s with
  | nil => exact fun _ hl => hl
  | cons x rest ih =>
    intro l hl
    rw [giveUp] at hl
    split at hl
    · exact ih p s l hl
    · split at hl
      · exact (List.mem_filter.mp (ih _ _ l hl)).1
      · exact (List.mem_filter.mp (ih _ _ l hl)).1

/-- A sweep looks at all keys. -/
theorem Contents.filter_idle (x : Contents H) (now : Nat) :
    x.keys.filter (Eviction.idleAt now).scope.covers = x.keys :=
  List.filter_eq_self.mpr fun _ _ => rfl

theorem Contents.picks_idle {x : Contents H} (now : Nat) {k : PoolKey} (hk : k ∈ x.keys) :
    x.picks (.idleAt now) k = x.evicts (.idleAt now) k := by
  rw [picks, filter_idle, List.contains_iff_mem.mpr hk, Bool.true_and]

/-- A key with a connection is picked if this is overdue. -/
theorem picks_eq_isOverdue (now : Nat) {y : PoolKey × PoolEntry H} (hy : y ∈ p.contents.entries) :
    p.contents.picks (.idleAt now) y.1 = p.isOverdue now y := by
  obtain ⟨hk, he⟩ := Contents.mem_entries.mp hy
  have hidle : y.2.isIdle now p.settings.idleTtl = p.isOverdue now y := by
    rw [PoolEntry.isIdle, isOverdue, decide_eq_decide]
    omega
  rw [Contents.picks_idle now hk, Contents.evicts, he]
  exact hidle

/-- The handles that go in a sweep are those of the overdue connections. -/
theorem Tidy.goes_swept (h : Tidy owns p) (now : Nat) :
    (p.contents.gone (.idleAt now)).map Prod.snd =
      (p.entries.filter (p.isOverdue now)).map fun x => x.2.handle := by
  have hpicked : p.entries.filter (p.isOverdue now) =
      p.entries.filter fun y => p.contents.picks (.idleAt now) y.1 := by
    rw [← h.orderly.entries_contents]
    exact List.filter_congr fun y hy => (picks_eq_isOverdue now hy).symm
  rw [hpicked, ← h.orderly.entries_contents, Contents.entries, Contents.gone,
    Contents.filter_idle, List.filter_filterMap, List.map_filterMap, List.map_filterMap]
  refine List.filterMap_congr fun k hk => ?_
  rw [Contents.goes?]
  cases hevicts : p.contents.evicts (.idleAt now) k <;> cases p.contents.entry k <;>
    simp [Option.filter, Contents.picks_idle now hk, hevicts]

/-- What a sweep comes to, its contents and its table. -/
theorem Tidy.perform_sweep (h : Tidy owns p) (now : Nat) (s : σ) :
    (p.perform o (.sweepAt now) s).1 = .number (p.entries.filter (p.isOverdue now)).length ∧
      (p.perform o (.sweepAt now) s).2.1.contents =
        p.contents.without (p.contents.picks (.idleAt now)) ∧
      ∀ l ∈ (p.perform o (.sweepAt now) s).2.1.links, l ∈ p.links := by
  have hmirrored := (h.mirrors_sweepAt o now s).2
  rw [Contents.perform, Contents.evict_eq o h.orderly.keys] at hmirrored
  refine ⟨?_, (congrArg (fun x => x.2.2.1) hmirrored).symm, ?_⟩
  · have hlength := congrArg List.length (h.goes_swept now)
    rw [List.length_map, List.length_map] at hlength
    rw [← hlength]
    exact (congrArg Prod.fst hmirrored).symm
  · rw [perform_sweepAt]
    exact links_giveUp o _ _ p s

/-- It closes the overdue connections, one after another. -/
theorem Tidy.closes_sweep (h : Tidy owns p) (now : Nat) (s : σ) :
    closes o p (.sweepAt now) s = (p.entries.filter (p.isOverdue now)).map fun x => x.2.handle := by
  have hmirrored := (h.mirrors_sweepAt o.collecting now ([], s)).2
  rw [Contents.perform, Contents.evict_eq o.collecting h.orderly.keys] at hmirrored
  have hworld := congrArg (fun x => x.2.2.2.1) hmirrored
  dsimp only at hworld
  rw [closes, ← hworld, foldl_close_collecting, List.append_nil, List.reverse_reverse,
    h.goes_swept now]

/-- What a sweep at an instant does to a pool. -/
structure SweepsAt (o : Outside σ H) (p : Pool H) (now : Nat) (s : σ) : Prop where
  /-- The overdue connections are closed, each once. -/
  closed : closes o p (.sweepAt now) s =
    (p.entries.filter (p.isOverdue now)).map fun x => x.2.handle
  /-- The others stay, with their handles and the times of their last use. -/
  kept : (p.perform o (.sweepAt now) s).2.1.entries = p.entries.filter fun x => !p.isOverdue now x
  /-- Only their slots stay in the table, and no empty one. -/
  linked : ∀ k i, (k, i) ∈ (p.perform o (.sweepAt now) s).2.1.links ↔
    (k, i) ∈ p.links ∧ ∃ e, p.entryAt? i = some e ∧ p.isOverdue now (k, e) = false
  selected : (p.perform o (.sweepAt now) s).2.1.selected = p.selected
  /-- It answers how many connections it closed. -/
  number : (p.perform o (.sweepAt now) s).1 = .number (closes o p (.sweepAt now) s).length
  /-- By so many there are fewer live ones. -/
  size : ∃ live, (p.perform o .size s).1 = .number (live + (closes o p (.sweepAt now) s).length) ∧
    ((p.perform o (.sweepAt now) s).2.1.perform o .size (p.perform o (.sweepAt now) s).2.2).1 =
      .number live

/-- Behind a sweep the connections are those that were not overdue. -/
theorem Tidy.entries_sweep (h : Tidy owns p) (now : Nat) (s : σ) :
    (p.perform o (.sweepAt now) s).2.1.entries = p.entries.filter fun x => !p.isOverdue now x := by
  obtain ⟨htidy, -⟩ := h.sweepAt o now s
  obtain ⟨-, hcontents, -⟩ := h.perform_sweep o now s
  rw [← htidy.orderly.entries_contents, hcontents, Contents.entries_without,
    ← h.orderly.entries_contents]
  exact List.filter_congr fun y hy => by rw [picks_eq_isOverdue now hy]

/-- A slot stays in the table if it has a connection that is not overdue. -/
theorem Tidy.links_sweep (h : Tidy owns p) (now : Nat) (s : σ) (k : PoolKey) (i : Nat) :
    (k, i) ∈ (p.perform o (.sweepAt now) s).2.1.links ↔
      (k, i) ∈ p.links ∧ ∃ e, p.entryAt? i = some e ∧ p.isOverdue now (k, e) = false := by
  obtain ⟨-, hcontents, hlinks⟩ := h.perform_sweep o now s
  -- a key stays in the table if the sweep does not pick it
  have hstays : (∃ j, (k, j) ∈ (p.perform o (.sweepAt now) s).2.1.links) ↔
      k ∈ p.contents.keys ∧ p.contents.picks (.idleAt now) k = false := by
    rw [← mem_keys, hcontents]
    simp [Contents.without]
  have hpicked : ∀ e, (k, i) ∈ p.links → p.entryAt? i = some e →
      p.contents.picks (.idleAt now) k = p.isOverdue now (k, e) := by
    intro e hi he
    have hentry : p.contents.entry k = some e := (h.orderly.entryOf?_of_mem hi).trans he
    have hlisted : (k, e) ∈ p.contents.entries :=
      Contents.mem_entries.mpr ⟨mem_keys.mpr ⟨i, hi⟩, hentry⟩
    exact picks_eq_isOverdue now hlisted
  constructor
  · intro hi
    obtain ⟨hk, hkept⟩ := hstays.mp ⟨i, hi⟩
    have hlink := hlinks _ hi
    refine ⟨hlink, ?_⟩
    cases he : p.entryAt? i with
    | none =>
      have hentry : p.contents.entry k = none := (h.orderly.entryOf?_of_mem hlink).trans he
      simp [Contents.picks_idle now hk, Contents.evicts, hentry] at hkept
    | some e => exact ⟨e, rfl, (hpicked e hlink he).symm.trans hkept⟩
  · rintro ⟨hlink, e, he, hkept⟩
    obtain ⟨j, hj⟩ := hstays.mpr ⟨mem_keys.mpr ⟨i, hlink⟩, (hpicked e hlink he).trans hkept⟩
    rwa [h.orderly.eq_of_mem hlink (hlinks _ hj)]

theorem Tidy.sweepsAt (h : Tidy owns p) (now : Nat) (s : σ) : SweepsAt o p now s := by
  obtain ⟨htidy, -⟩ := h.sweepAt o now s
  have hclosed := h.closes_sweep o now s
  have hnumber : (closes o p (.sweepAt now) s).length =
      (p.entries.filter (p.isOverdue now)).length := by rw [hclosed, List.length_map]
  refine ⟨hclosed, h.entries_sweep o now s, h.links_sweep o now s, ?_, ?_, ?_⟩
  · have hleaves : LeavesSelected (.sweepAt now : PoolCall H) := trivial
    exact selected_perform o hleaves p s
  · rw [hnumber]
    exact (h.perform_sweep o now s).1
  · refine ⟨_, ?_, htidy.perform_size o _⟩
    rw [h.perform_size, h.entries_sweep, hnumber, Nat.add_comm]
    exact congrArg _ (List.length_eq_length_filter_add (p.isOverdue now))

end Sweep

/-! ## Sweeps in a history -/

section History

variable (o : Outside σ H)

/-- The connections of a pool, each with its key, are all that are in its slots. -/
theorem Orderly.mem_entries {owns : PoolKey → Nat → Prop} {p : Pool H} (h : Orderly owns p)
    {i : Nat} {e : PoolEntry H} (he : p.entryAt? i = some e) : ∃ k, (k, e) ∈ p.entries := by
  have hmade : i < p.slots.length := by
    refine Nat.lt_of_not_le fun hi => ?_
    cases (entryAt?_of_length_le hi).symm.trans he
  obtain ⟨k, hk⟩ := h.owned i hmade
  have hlink := h.kept k i hk (he ▸ nofun)
  exact ⟨k, List.mem_filterMap.mpr ⟨(k, i), hlink, by rw [he]; rfl⟩⟩

/-- No key has two connections. -/
theorem Orderly.nodup_entries {owns : PoolKey → Nat → Prop} {p : Pool H} (h : Orderly owns p) :
    (p.entries.map Prod.fst).Nodup := by
  have hkeys : p.contents.entries.map Prod.fst =
      p.contents.keys.filter fun k => (p.contents.entry k).isSome := by
    rw [Contents.entries, List.map_filterMap, ← List.filterMap_eq_filter]
    refine List.filterMap_congr fun k _ => ?_
    cases hentry : p.contents.entry k <;> simp [Option.guard, hentry]
  rw [← h.entries_contents, hkeys]
  exact h.keys.filter _

/-- Behind a sweep the same sweep finds nothing to close. -/
theorem Tidy.sweep_again {owns : PoolKey → Nat → Prop} {p : Pool H} (h : Tidy owns p) (now : Nat)
    (s : σ) : closes o (p.perform o (.sweepAt now) s).2.1 (.sweepAt now)
      (p.perform o (.sweepAt now) s).2.2 = [] := by
  obtain ⟨htidy, -⟩ := h.sweepAt o now s
  have hsettings := h.settings_perform o (.sweepAt now) s
  have hoverdue : (p.perform o (.sweepAt now) s).2.1.isOverdue now = p.isOverdue now := by
    funext x
    rw [isOverdue, isOverdue, hsettings]
  rw [htidy.closes_sweep, h.entries_sweep, hoverdue, List.filter_filter]
  have hnone : (p.entries.filter fun x => p.isOverdue now x && !p.isOverdue now x) = [] :=
    List.filter_eq_nil_iff.mpr fun x _ => by cases p.isOverdue now x <;> decide
  rw [hnone]
  rfl

/-- In every state that calls one after another lead to, a sweep closes exactly the connections
    whose last use is too long ago, and leaves the others as they were; the same sweep behind it
    closes nothing. -/
theorem sweep_closes_idle (settings : PoolSettings) (before : List (PoolCall H)) (s : σ)
    (now : Nat) :
    let reached := (performAll o (.empty settings) before s).2
    let swept := (reached.1.perform o (.sweepAt now) reached.2).2
    reached.1.settings = settings ∧
      (∀ i e, reached.1.entryAt? i = some e → ∃ k, (k, e) ∈ reached.1.entries) ∧
      (reached.1.entries.map Prod.fst).Nodup ∧
      (∀ k e, (k, e) ∈ reached.1.entries →
        LastUsed (uses o (.empty settings) before s) k e.lastUsed) ∧
      SweepsAt o reached.1 now reached.2 ∧
      closes o swept.1 (.sweepAt now) swept.2 = [] := by
  intro reached swept
  obtain ⟨owns, htidy⟩ := (Tidy.empty settings).performAll o before s
  refine ⟨settings_performAll o settings before s, fun i e he => htidy.orderly.mem_entries he,
    htidy.orderly.nodup_entries, fun k e he => ?_, htidy.sweepsAt o now reached.2,
    htidy.sweep_again o now reached.2⟩
  rw [← htidy.orderly.entries_contents] at he
  exact (lastUsed_of_entry o settings before s).2 k e (Contents.mem_entries.mp he).2

/-- Of two connections the one that was used at 1 is closed at 12, that of 5 is not. -/
example :
    let reached := (performAll flaky (.empty ⟨10, 10, 1000, 2, 0⟩)
      [.acquire (keyOf "a"), .acquire (keyOf "b"), .acquire (keyOf "b")] 0).2
    reached.1.entries = [(keyOf "a", ⟨0, 1⟩), (keyOf "b", ⟨4, 5⟩)] ∧
      closes flaky reached.1 (.sweepAt 12) reached.2 = [0] := by
  decide +kernel

end History

end Pool
end Polyshell
