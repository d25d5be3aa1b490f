/-
  Which database a connection is opened on.

  A pool remembers the database that was selected last for a key, apart from the key's connection.
  Its history says what that is: the last selection for the key behind which neither the key, nor its
  session, nor the whole pool was given up (`LastSelected`).  Evictions, attempts to connect that
  fail, replaced handles and whatever is done for other keys have no part in it.

  1. **The connector's record** — a world in which every call of the connector is written down
     (`Outside.recording`); nothing else changes by that (`perform_recording`), so what it notes of one
     operation is what that calls the connector with (`dials`).

  2. **One call** — what is remembered behind a call is what the call selects, or what was remembered
     before it (`Tidy.selection?_perform`); so behind a run it is the last selection
     (`selection?_performAll`).

  3. **The target** — an acquisition calls the connector with the target that its key has when it
     begins, and no other call calls it at all (`target_of_dials`).  What the key's target is follows
     from the history alone (`dials_last_selected`).
-/
import Mathlib.Data.List.Induction
import Polyshell.Proofs.Pool.Changes
import Polyshell.Proofs.Pool.Targets

namespace Polyshell

variable {H σ : Type}

/-! ## The connector's record -/

/-- A world that writes down what the connector is called with, the latest first. -/
def Outside.recording (o : Outside σ H) : Outside (List PoolKey × σ) H where
  clock w := o.clock w.2
  connect target w := ((o.connect target w.2).1, target :: w.1, (o.connect target w.2).2)
  pause millis w := (w.1, o.pause millis w.2)
  close h w := (w.1, o.close h w.2)

/-- What the connector is called with while a call waits. -/
def Pool.Wait.dialled : Pool.Wait H → List PoolKey
  | .connector target => [target]
  | _ => []

theorem Outside.await_recording (o : Outside σ H) (w : Pool.Wait H) (record : List PoolKey) (s : σ) :
    o.recording.await w (record, s) =
      ((o.await w s).1, w.dialled ++ record, (o.await w s).2) := by
  cases w <;> rfl

/-- A world of which another shows a part, and in which the same happens as in that part. -/
structure Outside.Shows {τ : Type} (whole : Outside τ H) (o : Outside σ H) (view : τ → σ) :
    Prop where
  clock : ∀ w, whole.clock w = o.clock (view w)
  answer : ∀ target w, (whole.connect target w).1 = (o.connect target (view w)).1
  connect : ∀ target w, view (whole.connect target w).2 = (o.connect target (view w)).2
  pause : ∀ millis w, view (whole.pause millis w) = o.pause millis (view w)
  close : ∀ h w, view (whole.close h w) = o.close h (view w)

theorem Outside.Shows.await {τ : Type} {whole : Outside τ H} {o : Outside σ H} {view : τ → σ}
    (h : whole.Shows o view) (wait : Pool.Wait H) (w : τ) :
    (whole.await wait w).1 = (o.await wait (view w)).1 ∧
      view (whole.await wait w).2 = (o.await wait (view w)).2 := by
  cases wait with
  | connector target => exact ⟨h.answer target w, h.connect target w⟩
  | pause millis => exact ⟨rfl, h.pause millis w⟩
  | closing x => exact ⟨rfl, h.close x w⟩
  | _ => exact ⟨rfl, rfl⟩

namespace Pool

/-- A call answers the same and leaves the same pool in both of these worlds. -/
theorem drive_view {τ : Type} {whole : Outside τ H} {o : Outside σ H} {view : τ → σ}
    (h : whole.Shows o view) (fuel : Nat) (p : Pool H) (pt : Point H) (w : τ) :
    (drive whole fuel p pt w).1 = (drive o fuel p pt (view w)).1 ∧
      (drive whole fuel p pt w).2.1 = (drive o fuel p pt (view w)).2.1 ∧
      view (drive whole fuel p pt w).2.2 = (drive o fuel p pt (view w)).2.2 := by
  induction fuel generalizing p pt w with
  | zero => exact ⟨rfl, rfl, rfl⟩
  | succ fuel ih =>
    obtain ⟨hanswer, hbehind⟩ := h.await (pt.waits p.settings) w
    rw [drive, drive]
    split
    · exact ⟨rfl, rfl, rfl⟩
    · dsimp only
      rw [← hbehind, ← hanswer, ← h.clock]
      exact ih _ _ _

/-- What the connector is called with in the course of a call, one after another. -/
def dials (o : Outside σ H) (p : Pool H) (c : PoolCall H) (s : σ) : List PoolKey :=
  (p.perform o.recording c ([], s)).2.2.1.reverse

section Record

variable (o : Outside σ H)

/-- Writing down what the connector is called with changes nothing. -/
theorem recording_shows : o.recording.Shows o Prod.snd :=
  ⟨fun _ => rfl, fun _ _ => rfl, fun _ _ => rfl, fun _ _ => rfl, fun _ _ => rfl⟩

/-- The outcome, the pool and the world behind a call are those without a record. -/
theorem perform_recording (p : Pool H) (c : PoolCall H) (record : List PoolKey) (s : σ) :
    (p.perform o.recording c (record, s)).1 = (p.perform o c s).1 ∧
      (p.perform o.recording c (record, s)).2.1 = (p.perform o c s).2.1 ∧
      (p.perform o.recording c (record, s)).2.2.2 = (p.perform o c s).2.2 :=
  drive_view (recording_shows o) p.sections p (.start c) (record, s)

end Record

/-! ## What is remembered -/

/-- A call that sets anew what is remembered for a key: it selects a database, or gives the key
    up. -/
def Redirects (k : PoolKey) : PoolCall H → Prop
  | .select k' _ => k' = k
  | .remove k' => k' = k
  | .removeSession id => k.session = some id
  | .shutdown => True
  | _ => False

/-- A database was selected for a key, and nothing behind that selects another one or gives the key
    up. -/
def LastSelected (calls : List (PoolCall H)) (k : PoolKey) (d : String) : Prop :=
  ∃ earlier later, calls = earlier ++ .select k d :: later ∧ ∀ c ∈ later, ¬ Redirects k c

theorem not_lastSelected_nil {k : PoolKey} {d : String} :
    ¬ LastSelected ([] : List (PoolCall H)) k d := by
  rintro ⟨earlier, later, hcut, -⟩
  exact List.append_ne_nil_of_right_ne_nil earlier (List.cons_ne_nil _ _) hcut.symm

/-- The last call selects the database, or leaves alone what was selected before it. -/
theorem lastSelected_concat {calls : List (PoolCall H)} {c : PoolCall H} {k : PoolKey} {d : String} :
    LastSelected (calls ++ [c]) k d ↔
      c = .select k d ∨ ¬ Redirects k c ∧ LastSelected calls k d := by
  constructor
  · rintro ⟨earlier, later, hcut, hlater⟩
    rcases List.eq_nil_or_concat' later with rfl | ⟨later, last, rfl⟩
    · exact Or.inl (List.singleton_inj.mp (List.append_inj' hcut rfl).2)
    · rw [← List.cons_append, ← List.append_assoc] at hcut
      obtain ⟨hcalls, hlast⟩ := List.append_inj' hcut rfl
      cases hlast
      have hkept := fun c' hc' => hlater c' (List.mem_append_left _ hc')
      exact Or.inr ⟨hlater c (by simp), earlier, later, hcalls, hkept⟩
  · rintro (rfl | ⟨hc, earlier, later, rfl, hlater⟩)
    · exact ⟨calls, [], rfl, fun c hc => absurd hc List.not_mem_nil⟩
    · refine ⟨earlier, later ++ [c], by simp, fun c' hc' => ?_⟩
      rcases List.mem_append.mp hc' with hc' | hc'
      · exact hlater c' hc'
      · rwa [List.mem_singleton.mp hc']

section Remembered

variable {k : PoolKey} (o : Outside σ H)

/-- What is remembered is not in the slots, and an eviction leaves it there. -/
theorem Contents.selection_giveUp (e : Eviction) (keys : List PoolKey) (x : Contents H) :
    (x.giveUp e keys).2.selection = x.selection := by
  induction keys generalizing x with
  | nil => rfl
  | cons k keys ih =>
    rw [giveUp]
    split
    · exact ih (x.drop k)
    · exact ih x

/-- A call that gives keys up forgets what is remembered for these and for no others. -/
theorem Tidy.selection?_of_forget {owns : PoolKey → Nat → Prop} {p : Pool H} (h : Tidy owns p)
    {c : PoolCall H} {s : σ} {x : Contents H} {scope : Scope} {a : Account}
    (hx : x.selection = p.selection?)
    (hc : p.contents.perform o c s = (x.forget scope).evict o (.of scope) a s) (d : String) :
    (p.perform o c s).2.1.selection? k = some d ↔
      scope.covers k = false ∧ p.selection? k = some d := by
  have hmirrored := (h.perform_contents o c s).2.symm.trans hc
  have hselection : (p.perform o c s).2.1.selection? =
      ((x.forget scope).evict o (.of scope) a s).2.2.1.selection :=
    congrArg (fun outcome => outcome.2.2.1.selection) hmirrored
  rw [hselection, Contents.evict, Contents.selection_giveUp, ← hx]
  show (if scope.covers k then none else x.selection k) = some d ↔ _
  cases scope.covers k <;> simp

/-- A call selects the database that is remembered behind it, or leaves alone what was remembered
    before. -/
theorem Tidy.selection?_perform {owns : PoolKey → Nat → Prop} {p : Pool H} (h : Tidy owns p)
    (c : PoolCall H) (s : σ) (d : String) :
    (p.perform o c s).2.1.selection? k = some d ↔
      c = .select k d ∨ ¬ Redirects k c ∧ p.selection? k = some d := by
  have hleaves : LeavesSelected c → ¬ Redirects k c → c ≠ .select k d →
      ((p.perform o c s).2.1.selection? k = some d ↔
        c = .select k d ∨ ¬ Redirects k c ∧ p.selection? k = some d) := by
    intro hc hkeeps hselects
    rw [selection?_congr (selected_perform o hc p s), or_iff_right hselects, and_iff_right hkeeps]
  cases c with
  | select k' d' =>
    rw [perform_select]
    by_cases hk : k' = k
    · subst hk
      simp [selection?_select, Redirects]
    · simp [selection?_select_of_ne p d' (Ne.symm hk), Redirects, hk]
  | remove k' =>
    rw [h.selection?_of_forget o rfl rfl d]
    simp [Scope.covers, Redirects, eq_comm]
  | removeSession id =>
    rw [h.selection?_of_forget o rfl rfl d]
    simp [Scope.covers, Redirects]
  | shutdown =>
    have hx : { p.contents with closed := true }.selection = p.selection? := rfl
    rw [h.selection?_of_forget o hx rfl d]
    simp [Scope.covers, Redirects]
  | _ => exact hleaves trivial id fun hselects => by cases hselects

/-! ## Runs -/

theorem performAll_concat (calls : List (PoolCall H)) (c : PoolCall H) (p : Pool H) (s : σ) :
    (performAll o p (calls ++ [c]) s).2 =
      ((performAll o p calls s).2.1.perform o c (performAll o p calls s).2.2).2 := by
  induction calls generalizing p s with
  | nil => rfl
  | cons c' calls ih => exact ih _ _

theorem Tidy.performAll {owns : PoolKey → Nat → Prop} {p : Pool H} (h : Tidy owns p)
    (calls : List (PoolCall H)) (s : σ) : ∃ owns', Tidy owns' (performAll o p calls s).2.1 := by
  induction calls generalizing owns p s with
  | nil => exact ⟨owns, h⟩
  | cons c calls ih =>
    obtain ⟨owns', hbehind⟩ := (h.perform_contents o c s).1
    exact ih hbehind _

/-- The timing of a pool is the one that it was made with. -/
theorem settings_performAll (settings : PoolSettings) (calls : List (PoolCall H)) (s : σ) :
    (Pool.performAll o (.empty settings) calls s).2.1.settings = settings := by
  induction calls using List.reverseRecOn with
  | nil => rfl
  | append_singleton calls c ih =>
    obtain ⟨owns, htidy⟩ := (Tidy.empty settings).performAll o calls s
    rw [performAll_concat]
    exact (htidy.settings_perform o c _).trans ih

/-- What is remembered for a key behind a run is what was selected last. -/
theorem selection?_performAll (settings : PoolSettings) (calls : List (PoolCall H)) (s : σ)
    (d : String) :
    (Pool.performAll o (.empty settings) calls s).2.1.selection? k = some d ↔
      LastSelected calls k d := by
  induction calls using List.reverseRecOn generalizing d with
  | nil => exact ⟨nofun, fun h => absurd h not_lastSelected_nil⟩
  | append_singleton calls c ih =>
    obtain ⟨owns, htidy⟩ := (Tidy.empty settings).performAll o calls s
    rw [performAll_concat, htidy.selection?_perform o, ih, lastSelected_concat]

end Remembered

/-! ## The target -/

/-- Where the history of a pool has the next connection of a key opened: on the database that was
    selected last, or else on that of the key. -/
def IsTarget (calls : List (PoolCall H)) (k target : PoolKey) : Prop :=
  (∃ d, LastSelected calls k d ∧ target = { k with database := some d }) ∨
    (∀ d, ¬ LastSelected calls k d) ∧ target = k

section Target

variable (o : Outside σ H)

/-- A pool aims where its history says. -/
theorem isTarget_performAll (settings : PoolSettings) (calls : List (PoolCall H)) (s : σ)
    (k : PoolKey) : IsTarget calls k ((performAll o (.empty settings) calls s).2.1.target k) := by
  rw [target]
  split
  · next d hd => exact Or.inl ⟨d, (selection?_performAll o settings calls s d).mp hd, rfl⟩
  · next hnone =>
    refine Or.inr ⟨fun d hd => ?_, rfl⟩
    cases hnone.symm.trans ((selection?_performAll o settings calls s d).mpr hd)

/-- What a call has the connector called with from a point on is the target of the key that it
    acquires. -/
theorem target_of_drive_recording {c : PoolCall H} (fuel : Nat) {p : Pool H} {pt : Point H}
    {record : List PoolKey} (s : σ) (hserves : pt.Serves c)
    (haims : ∀ k, c = .acquire k → pt.Aims (p.target k)) {target : PoolKey}
    (h : target ∈ (drive o.recording fuel p pt (record, s)).2.2.1) :
    target ∈ record ∨ ∃ k, c = .acquire k ∧ target = p.target k := by
  induction fuel generalizing p pt record s with
  | zero => exact Or.inl h
  | succ fuel ih =>
    rw [drive] at h
    split at h
    · exact Or.inl h
    · rw [o.await_recording] at h
      dsimp only at h
      have hnow : target ∈ (pt.waits p.settings).dialled →
          ∃ k, c = .acquire k ∧ target = p.target k := by
        intro hmem
        cases pt with
        | connect k i target' attempt =>
          obtain rfl := List.mem_singleton.mp hmem
          exact ⟨k, hserves, haims k hserves⟩
        | _ => cases hmem
      generalize o.recording.clock _ = now at h
      generalize (o.await (pt.waits p.settings) s).1 = got at h
      have hserves' := (leadsTo_advance p now got pt).serves hserves
      -- an acquisition neither selects nor gives keys up, so its target stays
      have hkept : ∀ k, c = .acquire k → (p.advance now got pt).1.target k = p.target k :=
        fun k hc => target_congr (selected_advance_of_serves p now got
          (hc ▸ trivial : LeavesSelected c) hserves) k
      have haims' : ∀ k, c = .acquire k →
          (p.advance now got pt).2.Aims ((p.advance now got pt).1.target k) := by
        intro k hc
        rw [hkept k hc]
        exact aims_advance (hc ▸ hserves) (haims k hc) now got
      rcases ih _ hserves' haims' h with hmem | ⟨k, hc, htarget⟩
      · rcases List.mem_append.mp hmem with hmem | hmem
        · exact Or.inr (hnow hmem)
        · exact Or.inl hmem
      · exact Or.inr ⟨k, hc, htarget.trans (hkept k hc)⟩

/-- The connector is called by acquisitions only, and with the target of their key. -/
theorem target_of_dials {p : Pool H} {c : PoolCall H} {s : σ} {target : PoolKey}
    (h : target ∈ dials o p c s) : ∃ k, c = .acquire k ∧ target = p.target k := by
  have hserves : (Point.start c : Point H).Serves c := rfl
  have hdials := target_of_drive_recording o p.sections s hserves (fun _ _ => trivial)
    (List.mem_reverse.mp h)
  exact hdials.resolve_left List.not_mem_nil

/-- In every history of a new pool, whatever the connector answered and whenever idle connections were
    closed, a connection is opened by an acquisition, and on the database that was selected last for
    its key. -/
theorem dials_last_selected (settings : PoolSettings) (before : List (PoolCall H)) (s : σ)
    (c : PoolCall H) {target : PoolKey}
    (h : target ∈ dials o (performAll o (.empty settings) before s).2.1 c
      (performAll o (.empty settings) before s).2.2) :
    ∃ k, c = .acquire k ∧ IsTarget before k target := by
  obtain ⟨k, hc, htarget⟩ := target_of_dials o h
  exact ⟨k, hc, htarget ▸ isTarget_performAll o settings before s k⟩

end Target

/-- A connector that answers at its first call and again from its fifth on. -/
def flaky : Outside Nat Nat where
  clock calls := calls
  connect _ calls := (if calls = 0 ∨ 4 ≤ calls then .opened calls else .timedOut, calls + 1)
  pause _ calls := calls
  close _ calls := calls

/-- A key of a session. -/
def keyOf (session : String) : PoolKey :=
  ⟨.document, "localhost", 27017, none, none, some "admin", some session⟩

/-- A selection outlives the connection that was open, an attempt to connect that failed, and what
    happens to another key; both calls of the connector that follow go where it says. -/
theorem dials_last_selected_flaky :
    let before := [.acquire (keyOf "a"), .select (keyOf "a") "orders", .sweepAt 1000,
      .select (keyOf "b") "stock", .acquire (keyOf "a"), .removeSession "b"]
    let behind := performAll flaky (.empty ⟨10, 10, 1000, 2, 0⟩) before 0
    dials flaky behind.2.1 (.acquire (keyOf "a")) behind.2.2 =
        [{ keyOf "a" with database := some "orders" }, { keyOf "a" with database := some "orders" }] ∧
      ∃ k, PoolCall.acquire (H := Nat) (keyOf "a") = .acquire k ∧
        IsTarget before k { keyOf "a" with database := some "orders" } := by
  intro before behind
  have hdials : dials flaky behind.2.1 (.acquire (keyOf "a")) behind.2.2 =
      [{ keyOf "a" with database := some "orders" }, { keyOf "a" with database := some "orders" }] := by
    decide +kernel
  refine ⟨hdials, dials_last_selected flaky ⟨10, 10, 1000, 2, 0⟩ before 0 (.acquire (keyOf "a")) ?_⟩
  exact hdials ▸ List.mem_cons_self

end Pool
end Polyshell
