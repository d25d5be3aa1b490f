/-
  Sessions do not interfere.

  All sessions share one pool, with one table and one record of selections.  Yet what a session sees
  is what it would see if there were no other.

  1. **The same for a session** — `Contents.SameFor id x y`: the keys of the session are in both
     tables, with the same connections and the same selections.  What is done for it keeps this, and
     what is done for others changes nothing of it.

  2. **Connectors** — a `Connector` answers by what was attempted before for the same session; how
     long an answer takes may depend on that as well, and so does the time at which it comes.

  3. **Runs** — `play` carries calls out one after another, each at an instant of its own.  A deed
     is a call with its answer and with what was noted meanwhile, and `Deed.seenBy` is what a session
     sees of it.

  4. **Isolation** — without the calls of the others a session sees the same (`play_isolated`).
-/
import Polyshell.Proofs.Pool.Contents

namespace Polyshell

/-- Whether a key belongs to a session. -/
def PoolKey.isOf (k : PoolKey) (id : String) : Bool := k.session = some id

namespace PoolCall

variable {H : Type}

/-- Whether a call is one for a session: on one of its keys, or on all of them. -/
def isOf (c : PoolCall H) (id : String) : Bool :=
  match c with
  | .acquire k => k.isOf id
  | .replace k _ => k.isOf id
  | .select k _ => k.isOf id
  | .selected k => k.isOf id
  | .remove k => k.isOf id
  | .removeSession id' => id' = id
  | .sweepAt _ => false
  | .shutdown => false
  | .size => false

/-- Whether a call is one for all sessions. -/
def isCommon : PoolCall H → Bool
  | .sweepAt _ => true
  | .shutdown => true
  | _ => false

end PoolCall

namespace Pool

variable {H : Type} {id : String}

/-! ## The same for a session -/

namespace Contents

/-- A selection does not change whose the key is. -/
theorem session_target (x : Contents H) (k : PoolKey) : (x.target k).session = k.session := by
  rw [Contents.target]
  split <;> rfl

/-- Two contents that a session cannot tell apart. -/
structure SameFor (id : String) (x y : Contents H) : Prop where
  settings : y.settings = x.settings
  closed : y.closed = x.closed
  keys : (y.keys.filter fun k => k.isOf id) = x.keys.filter fun k => k.isOf id
  entry : ∀ k, k.isOf id = true → y.entry k = x.entry k
  selection : ∀ k, k.isOf id = true → y.selection k = x.selection k

namespace SameFor

variable {x y z : Contents H}

theorem refl (x : Contents H) : SameFor id x x :=
  ⟨rfl, rfl, rfl, fun _ _ => rfl, fun _ _ => rfl⟩

theorem symm (h : SameFor id x y) : SameFor id y x :=
  ⟨h.settings.symm, h.closed.symm, h.keys.symm, fun k hk => (h.entry k hk).symm,
    fun k hk => (h.selection k hk).symm⟩

theorem trans (h : SameFor id x y) (h' : SameFor id y z) : SameFor id x z :=
  ⟨h'.settings.trans h.settings, h'.closed.trans h.closed, h'.keys.trans h.keys,
    fun k hk => (h'.entry k hk).trans (h.entry k hk),
    fun k hk => (h'.selection k hk).trans (h.selection k hk)⟩

/-! ### What is done for the session -/

theorem put (h : SameFor id x y) (k : PoolKey) (e : Option (PoolEntry H)) :
    SameFor id (x.put k e) (y.put k e) := by
  refine ⟨h.settings, h.closed, h.keys, fun k' hk' => ?_, h.selection⟩
  show (if k' = k then e else y.entry k') = if k' = k then e else x.entry k'
  rw [h.entry k' hk']

theorem select (h : SameFor id x y) (k : PoolKey) (d : String) :
    SameFor id (x.select k d) (y.select k d) := by
  refine ⟨h.settings, h.closed, h.keys, h.entry, fun k' hk' => ?_⟩
  show (if k' = k then some d else y.selection k') = if k' = k then some d else x.selection k'
  rw [h.selection k' hk']

theorem forget (h : SameFor id x y) (s : Scope) : SameFor id (x.forget s) (y.forget s) := by
  refine ⟨h.settings, h.closed, h.keys, h.entry, fun k' hk' => ?_⟩
  show (if s.covers k' then none else y.selection k') = if s.covers k' then none else x.selection k'
  rw [h.selection k' hk']

theorem drop (h : SameFor id x y) (k : PoolKey) : SameFor id (x.drop k) (y.drop k) := by
  refine ⟨h.settings, h.closed, ?_, (h.put k none).entry, h.selection⟩
  show ((y.keys.filter _).filter _) = (x.keys.filter _).filter _
  rw [List.filter_comm, h.keys, List.filter_comm]

theorem mem_keys (h : SameFor id x y) {k : PoolKey} (hk : k.isOf id = true) :
    k ∈ y.keys ↔ k ∈ x.keys := by
  have hmem : ∀ ks : List PoolKey, k ∈ ks ↔ k ∈ ks.filter fun k => k.isOf id := fun ks => by
    rw [List.mem_filter, hk, and_iff_left rfl]
  rw [hmem, h.keys, ← hmem]

theorem enlist (h : SameFor id x y) {k : PoolKey} (hk : k.isOf id = true) :
    SameFor id (x.enlist k) (y.enlist k) := by
  refine ⟨h.settings, h.closed, ?_, h.entry, h.selection⟩
  show (if k ∈ y.keys then y.keys else y.keys ++ [k]).filter _ =
    (if k ∈ x.keys then x.keys else x.keys ++ [k]).filter _
  rw [if_congr (h.mem_keys hk) rfl rfl]
  split
  · exact h.keys
  · rw [List.filter_append, h.keys, List.filter_append]

theorem target (h : SameFor id x y) {k : PoolKey} (hk : k.isOf id = true) :
    y.target k = x.target k := by
  rw [Contents.target, h.selection k hk, Contents.target]

theorem evicts (h : SameFor id x y) (e : Eviction) {k : PoolKey} (hk : k.isOf id = true) :
    y.evicts e k = x.evicts e k := by
  cases e with
  | of s => rfl
  | idleAt now => rw [Contents.evicts, h.entry k hk, h.settings, Contents.evicts]

/-! ### What is done for others -/

theorem forget_other {s : Scope} (hs : ∀ k, k.isOf id = true → s.covers k = false)
    (x : Contents H) : SameFor id x (x.forget s) := by
  refine ⟨rfl, rfl, rfl, fun _ _ => rfl, fun k hk => ?_⟩
  show (if s.covers k then none else x.selection k) = _
  rw [hs k hk, if_neg Bool.false_ne_true]

variable {k : PoolKey} (hk : k.isOf id = false)
include hk

theorem put_other (x : Contents H) (e : Option (PoolEntry H)) : SameFor id x (x.put k e) := by
  refine ⟨rfl, rfl, rfl, fun k' hk' => if_neg ?_, fun _ _ => rfl⟩
  rintro rfl
  rw [hk] at hk'
  cases hk'

theorem select_other (x : Contents H) (d : String) : SameFor id x (x.select k d) := by
  refine ⟨rfl, rfl, rfl, fun _ _ => rfl, fun k' hk' => if_neg ?_⟩
  rintro rfl
  rw [hk] at hk'
  cases hk'

theorem drop_other (x : Contents H) : SameFor id x (x.drop k) := by
  refine ⟨rfl, rfl, ?_, (put_other hk x none).entry, fun _ _ => rfl⟩
  show (x.keys.filter _).filter _ = x.keys.filter _
  rw [List.filter_filter]
  refine List.filter_congr fun k' _ => ?_
  by_cases hk' : k' = k
  · rw [hk', hk, Bool.false_and]
  · simp [hk']

theorem enlist_other (x : Contents H) : SameFor id x (x.enlist k) := by
  refine ⟨rfl, rfl, ?_, fun _ _ => rfl, fun _ _ => rfl⟩
  show (if k ∈ x.keys then x.keys else x.keys ++ [k]).filter _ = x.keys.filter _
  split
  · rfl
  · rw [List.filter_append, List.filter_cons, hk, if_neg Bool.false_ne_true, List.filter_nil,
      List.append_nil]

end SameFor

/-! ### Evictions -/

/-- An eviction does the same to the session whether or not it looks at other keys. -/
theorem SameFor.giveUp {x y : Contents H} (h : SameFor id x y) (e : Eviction)
    (ks : List PoolKey) :
    SameFor id (x.giveUp e ks).2 (y.giveUp e (ks.filter fun k => k.isOf id)).2 ∧
      ((x.giveUp e ks).1.filter fun z => z.1.isOf id) =
        (y.giveUp e (ks.filter fun k => k.isOf id)).1 := by
  induction ks generalizing x y with
  | nil => exact ⟨h, rfl⟩
  | cons k rest ih =>
    rw [List.filter_cons, Contents.giveUp]
    cases hk : k.isOf id with
    | true =>
      rw [if_pos rfl, Contents.giveUp, h.evicts e hk, h.entry k hk]
      split
      · obtain ⟨hsame, hgone⟩ := ih (h.drop k)
        refine ⟨hsame, ?_⟩
        rw [List.filter_append, hgone]
        cases x.entry k with
        | none => rfl
        | some y =>
          have hown : ([(k, y.handle)].filter fun z => z.1.isOf id) = [(k, y.handle)] := by
            rw [List.filter_cons, hk, if_pos rfl, List.filter_nil]
          exact congrArg (· ++ _) hown
      · exact ih h
    | false =>
      rw [if_neg Bool.false_ne_true]
      split
      · obtain ⟨hsame, hgone⟩ := ih ((drop_other hk x).symm.trans h)
        refine ⟨hsame, ?_⟩
        rw [List.filter_append, hgone]
        cases x.entry k with
        | none => rfl
        | some y =>
          have hother : ([(k, y.handle)].filter fun z => z.1.isOf id) = [] := by
            rw [List.filter_cons, hk, if_neg Bool.false_ne_true, List.filter_nil]
          exact congrArg (· ++ _) hother
      · exact ih h

/-- So an eviction does the same to it on contents that it cannot tell apart. -/
theorem SameFor.giveUp_keys {x y : Contents H} (h : SameFor id x y) (e : Eviction) :
    SameFor id (x.giveUp e (x.keys.filter e.scope.covers)).2
        (y.giveUp e (y.keys.filter e.scope.covers)).2 ∧
      ((x.giveUp e (x.keys.filter e.scope.covers)).1.filter fun z => z.1.isOf id) =
        (y.giveUp e (y.keys.filter e.scope.covers)).1.filter fun z => z.1.isOf id := by
  obtain ⟨hsame, hgone⟩ := h.giveUp e (x.keys.filter e.scope.covers)
  obtain ⟨hsame', hgone'⟩ := (refl y).giveUp e (y.keys.filter e.scope.covers)
  have hkeys : ((y.keys.filter e.scope.covers).filter fun k => k.isOf id) =
      (x.keys.filter e.scope.covers).filter fun k => k.isOf id := by
    rw [List.filter_comm, h.keys, List.filter_comm]
  rw [hkeys] at hsame' hgone'
  exact ⟨hsame.trans hsame'.symm, hgone.trans hgone'.symm⟩

/-- What is closed belongs to keys that the eviction looked at. -/
theorem mem_giveUp {x : Contents H} {e : Eviction} {ks : List PoolKey} :
    ∀ z ∈ (x.giveUp e ks).1, z.1 ∈ ks := by
  induction ks generalizing x with
  | nil => exact fun z hz => absurd hz List.not_mem_nil
  | cons k rest ih =>
    rw [giveUp]
    split
    · intro z hz
      rcases List.mem_append.mp hz with hz | hz
      · obtain ⟨y, -, rfl⟩ := Option.map_eq_some_iff.mp (Option.mem_toList.mp hz)
        exact List.mem_cons_self
      · exact List.mem_cons_of_mem k (ih z hz)
    · exact fun z hz => List.mem_cons_of_mem k (ih z hz)

end Contents

/-! ## Connectors -/

/-- Time, and what was done with it. -/
structure World where
  now : Nat
  /-- The attempts to connect: what with, and when; the latest first. -/
  attempts : List (PoolKey × Nat)

/-- The attempts for the keys of a session. -/
def World.attemptsOf (w : World) (session : Option String) : List (PoolKey × Nat) :=
  w.attempts.filter fun a => a.1.session = session

/-- A connector that answers by the earlier attempts for keys of the same session. -/
structure Connector (H : Type) where
  answer : (target : PoolKey) → (now : Nat) → (earlier : List (PoolKey × Nat)) → Attempt H
  /-- For how long one waits for the answer. -/
  lasts : (target : PoolKey) → (now : Nat) → (earlier : List (PoolKey × Nat)) → Nat
  /-- For how long one waits until a connection is closed. -/
  closing : H → Nat

/-- The outside of a pool that connects with it. -/
def Connector.outside (c : Connector H) : Outside World H where
  clock w := w.now
  connect target w :=
    (c.answer target w.now (w.attemptsOf target.session),
      ⟨w.now + c.lasts target w.now (w.attemptsOf target.session),
        (target, w.now) :: w.attempts⟩)
  pause millis w := { w with now := w.now + millis }
  close h w := { w with now := w.now + c.closing h }

/-- Two worlds that a session cannot tell apart. -/
structure World.SameFor (id : String) (w w' : World) : Prop where
  now : w'.now = w.now
  attempts : w'.attemptsOf (some id) = w.attemptsOf (some id)

section Connecting

variable (c : Connector H)

theorem World.SameFor.connect {w w' : World} (h : World.SameFor id w w') {target : PoolKey}
    (ht : target.session = some id) :
    (c.outside.connect target w').1 = (c.outside.connect target w).1 ∧
      World.SameFor id (c.outside.connect target w).2 (c.outside.connect target w').2 := by
  have hearlier : w'.attemptsOf target.session = w.attemptsOf target.session := by
    rw [ht, h.attempts]
  refine ⟨?_, ?_, ?_⟩
  · show c.answer target w'.now (w'.attemptsOf target.session) = _
    rw [hearlier, h.now]
    rfl
  · show w'.now + c.lasts target w'.now (w'.attemptsOf target.session) = _
    rw [hearlier, h.now]
    rfl
  · have hown : ∀ now attempts, (⟨now, (target, w.now) :: attempts⟩ : World).attemptsOf (some id) =
        (target, w.now) :: (⟨now, attempts⟩ : World).attemptsOf (some id) := fun now attempts =>
      List.filter_cons_of_pos (decide_eq_true ht)
    show (⟨_, (target, w'.now) :: w'.attempts⟩ : World).attemptsOf _ = _
    rw [h.now]
    exact (hown _ _).trans ((congrArg ((target, w.now) :: ·) h.attempts).trans (hown _ _).symm)

/-- Dialling for the session is the same in both worlds. -/
theorem World.SameFor.dial {w w' : World} (h : World.SameFor id w w') (settings : PoolSettings)
    (k : PoolKey) {target : PoolKey} (ht : target.session = some id) (left attempt : Nat) :
    (Pool.dial c.outside settings k target left attempt w').1 =
        (Pool.dial c.outside settings k target left attempt w).1 ∧
      dialled c.outside settings k target left attempt w' =
        dialled c.outside settings k target left attempt w ∧
      World.SameFor id (Pool.dial c.outside settings k target left attempt w).2
        (Pool.dial c.outside settings k target left attempt w').2 := by
  induction left generalizing attempt w w' with
  | zero =>
    obtain ⟨hanswer, hworld⟩ := h.connect c ht
    rw [Pool.dial, Pool.dial, dialled, dialled, hanswer]
    exact ⟨rfl, rfl, hworld⟩
  | succ left ih =>
    obtain ⟨hanswer, hworld⟩ := h.connect c ht
    rw [Pool.dial, Pool.dial, dialled, dialled, hanswer]
    cases outcome settings k (c.outside.connect target w).1 with
    | ok x => exact ⟨rfl, rfl, hworld⟩
    | error e =>
      have hpaused : World.SameFor id
          (c.outside.pause (settings.pause attempt) (c.outside.connect target w).2)
          (c.outside.pause (settings.pause attempt) (c.outside.connect target w').2) :=
        ⟨congrArg (· + settings.pause attempt) hworld.now, hworld.attempts⟩
      obtain ⟨hresult, hnoted, hlater⟩ := ih hpaused (attempt + 1)
      exact ⟨hresult, congrArg (Event.connecting k target :: ·) hnoted, hlater⟩

/-- Dialling for another session is no attempt for this one. -/
theorem attemptsOf_dial (settings : PoolSettings) (k : PoolKey) {target : PoolKey}
    (ht : target.session ≠ some id) (left attempt : Nat) (w : World) :
    (dial c.outside settings k target left attempt w).2.attemptsOf (some id) =
      w.attemptsOf (some id) := by
  have hconnect : ∀ w, (c.outside.connect target w).2.attemptsOf (some id) =
      w.attemptsOf (some id) := by
    intro w
    show ((target, w.now) :: w.attempts).filter _ = _
    rw [List.filter_cons, if_neg (by simpa using ht)]
    rfl
  induction left generalizing attempt w with
  | zero => exact hconnect w
  | succ left ih =>
    rw [dial]
    cases outcome settings k (c.outside.connect target w).1 with
    | ok x => exact hconnect w
    | error e => exact (ih _ _).trans (hconnect w)

/-- Closing connections is no attempt. -/
theorem attemptsOf_closed (gone : List (PoolKey × H)) (w : World) (session : Option String) :
    (gone.foldl (fun w z => c.outside.close z.2 w) w).attemptsOf session =
      w.attemptsOf session := by
  induction gone generalizing w with
  | nil => rfl
  | cons z gone ih => exact ih _

end Connecting

/-! ## Calls -/

/-- Whether an event is about a key of a session. -/
def Event.isOf (e : Event H Empty) (id : String) : Bool := e.about?.any fun k => k.isOf id

section Calls

open Contents

variable (c : Connector H) {x y : Contents H}

/-- An eviction closes the same of the session. -/
theorem Contents.SameFor.evict (h : SameFor id x y) (e : Eviction) (a : Account) (w w' : World) :
    SameFor id (x.evict c.outside e a w).2.2.1 (y.evict c.outside e a w').2.2.1 ∧
      ((y.evict c.outside e a w').2.1.filter fun z => z.isOf id) =
        (x.evict c.outside e a w).2.1.filter fun z => z.isOf id := by
  obtain ⟨hsame, hgone⟩ := h.giveUp_keys e
  refine ⟨hsame, ?_⟩
  rw [Contents.evict, Contents.evict]
  dsimp only
  rw [List.filter_map, List.filter_map]
  exact congrArg (List.map _) hgone.symm

/-- An eviction of the session's own keys comes to the same. -/
theorem Contents.SameFor.evict_own (h : SameFor id x y) (e : Eviction) (a : Account) (w w' : World)
    (hown : ∀ k, e.scope.covers k = true → k.isOf id = true) :
    (y.evict c.outside e a w').1 = (x.evict c.outside e a w).1 ∧
      (y.evict c.outside e a w').2.1 = (x.evict c.outside e a w).2.1 := by
  have hall : ∀ x : Contents H, ((x.giveUp e (x.keys.filter e.scope.covers)).1.filter
      fun z => z.1.isOf id) = (x.giveUp e (x.keys.filter e.scope.covers)).1 := fun x =>
    List.filter_eq_self.mpr fun z hz => hown z.1 (List.mem_filter.mp (mem_giveUp z hz)).2
  have hgone := (h.giveUp_keys e).2
  rw [hall, hall] at hgone
  rw [Contents.evict, Contents.evict, hgone]
  exact ⟨rfl, rfl⟩

/-- An eviction of other keys does nothing to the session. -/
theorem Contents.SameFor.evict_other (x : Contents H) (e : Eviction) (a : Account) (w : World)
    (hother : ∀ k, k.isOf id = true → e.scope.covers k = false) :
    SameFor id x (x.evict c.outside e a w).2.2.1 := by
  have hnone : ((x.keys.filter e.scope.covers).filter fun k => k.isOf id) = [] := by
    refine List.filter_eq_nil_iff.mpr fun k hk hof => ?_
    cases (hother k hof).symm.trans (List.mem_filter.mp hk).2
  obtain ⟨hsame, -⟩ := (SameFor.refl x).giveUp e (x.keys.filter e.scope.covers)
  rw [hnone] at hsame
  exact hsame.symm

/-- What gives up the session's own keys comes to the same. -/
theorem Contents.SameFor.forget_evict_own (h : SameFor id x y) (scope : Scope) (a : Account)
    {w w' : World} (hw : World.SameFor id w w')
    (hown : ∀ k, scope.covers k = true → k.isOf id = true) :
    ((y.forget scope).evict c.outside (.of scope) a w').1 =
        ((x.forget scope).evict c.outside (.of scope) a w).1 ∧
      ((y.forget scope).evict c.outside (.of scope) a w').2.1 =
        ((x.forget scope).evict c.outside (.of scope) a w).2.1 ∧
      SameFor id ((x.forget scope).evict c.outside (.of scope) a w).2.2.1
        ((y.forget scope).evict c.outside (.of scope) a w').2.2.1 ∧
      ((y.forget scope).evict c.outside (.of scope) a w').2.2.2.attemptsOf (some id) =
        ((x.forget scope).evict c.outside (.of scope) a w).2.2.2.attemptsOf (some id) := by
  obtain ⟨hresult, hnoted⟩ := (h.forget scope).evict_own c (.of scope) a w w' hown
  refine ⟨hresult, hnoted, ((h.forget scope).evict c (.of scope) a w w').1, ?_⟩
  exact (attemptsOf_closed c _ w' _).trans (hw.attempts.trans (attemptsOf_closed c _ w _).symm)

/-- An acquisition for the session finds the same connection, or dials alike. -/
theorem Contents.SameFor.acquire (h : SameFor id x y) {k : PoolKey} (hk : k.isOf id = true)
    {w w' : World} (hw : World.SameFor id w w') :
    (y.acquire c.outside k w').1 = (x.acquire c.outside k w).1 ∧
      (y.acquire c.outside k w').2.1 = (x.acquire c.outside k w).2.1 ∧
      SameFor id (x.acquire c.outside k w).2.2.1 (y.acquire c.outside k w').2.2.1 ∧
      (y.acquire c.outside k w').2.2.2.attemptsOf (some id) =
        (x.acquire c.outside k w).2.2.2.attemptsOf (some id) := by
  rw [Contents.acquire, Contents.acquire, h.entry k hk]
  cases x.entry k with
  | some e =>
    have hclock : c.outside.clock w' = c.outside.clock w := hw.now
    rw [hclock]
    exact ⟨rfl, rfl, h.put k _, hw.attempts⟩
  | none =>
    have htarget : (x.target k).session = some id :=
      (session_target x k).trans (of_decide_eq_true hk)
    obtain ⟨hresult, hnoted, hworld⟩ :=
      hw.dial c x.settings k htarget (x.settings.attempts - 1) 1
    dsimp only
    rw [h.settings, h.target hk, hresult, hnoted]
    refine ⟨rfl, rfl, ?_, hworld.attempts⟩
    cases (dial c.outside x.settings k (x.target k) (x.settings.attempts - 1) 1 w).1 with
    | error e => exact h.enlist hk
    | ok z =>
      dsimp only
      rw [show c.outside.clock _ = c.outside.clock _ from hworld.now]
      exact (h.enlist hk).put k _

/-- A call for the session comes to the same on contents and in a world that it cannot tell
    apart. -/
theorem Contents.SameFor.perform_own (h : SameFor id x y) {call : PoolCall H}
    (hcall : call.isOf id = true) {w w' : World} (hw : World.SameFor id w w') :
    (y.perform c.outside call w').1 = (x.perform c.outside call w).1 ∧
      (y.perform c.outside call w').2.1 = (x.perform c.outside call w).2.1 ∧
      SameFor id (x.perform c.outside call w).2.2.1 (y.perform c.outside call w').2.2.1 ∧
      (y.perform c.outside call w').2.2.2.attemptsOf (some id) =
        (x.perform c.outside call w).2.2.2.attemptsOf (some id) := by
  cases call with
  | acquire k =>
    rw [Contents.perform, Contents.perform, h.closed]
    split
    · exact ⟨rfl, rfl, h, hw.attempts⟩
    · exact h.acquire c hcall hw
  | replace k z =>
    rw [Contents.perform, Contents.perform, h.entry k hcall]
    cases x.entry k with
    | some e =>
      have hclock : c.outside.clock w' = c.outside.clock w := hw.now
      rw [hclock]
      exact ⟨rfl, rfl, h.put k _, hw.attempts⟩
    | none => exact ⟨rfl, rfl, h, hw.attempts⟩
  | select k d => exact ⟨rfl, rfl, h.select k d, hw.attempts⟩
  | selected k =>
    exact ⟨congrArg PoolResult.database (h.selection k hcall), rfl, h, hw.attempts⟩
  | remove k =>
    refine h.forget_evict_own c (.key k) .whetherAny hw fun k' hk' => ?_
    rw [of_decide_eq_true hk']
    exact hcall
  | removeSession id' =>
    obtain rfl : id' = id := of_decide_eq_true hcall
    exact h.forget_evict_own c (.session id') .theNumber hw fun k' hk' => hk'
  | _ => cases hcall

/-- So does a call for all sessions, as far as the session is concerned. -/
theorem Contents.SameFor.perform_common (h : SameFor id x y) {call : PoolCall H}
    (hcall : call.isCommon = true) (w w' : World) :
    SameFor id (x.perform c.outside call w).2.2.1 (y.perform c.outside call w').2.2.1 ∧
      ((y.perform c.outside call w').2.1.filter fun z => z.isOf id) =
        (x.perform c.outside call w).2.1.filter fun z => z.isOf id := by
  cases call with
  | sweepAt now => exact h.evict c (.idleAt now) .theNumber w w'
  | shutdown =>
    have hshut : SameFor id { x with closed := true } { y with closed := true } :=
      ⟨h.settings, rfl, h.keys, h.entry, h.selection⟩
    exact (hshut.forget .all).evict c (.of .all) .nothing w w'
  | _ => cases hcall

/-- An acquisition for another session does nothing to this one. -/
theorem Contents.SameFor.acquire_other (x : Contents H) {k : PoolKey} (hk : k.isOf id = false)
    (w : World) : SameFor id x (x.acquire c.outside k w).2.2.1 := by
  rw [Contents.acquire]
  cases x.entry k with
  | some e => exact .put_other hk x _
  | none =>
    dsimp only
    cases (dial c.outside x.settings k (x.target k) (x.settings.attempts - 1) 1 w).1 with
    | error e => exact .enlist_other hk x
    | ok z => exact (enlist_other hk x).trans (.put_other hk _ _)

/-- Any other call does nothing to the session. -/
theorem Contents.SameFor.perform_other (x : Contents H) {call : PoolCall H}
    (hown : call.isOf id = false) (hcommon : call.isCommon = false) (w : World) :
    SameFor id x (x.perform c.outside call w).2.2.1 := by
  cases call with
  | acquire k =>
    rw [Contents.perform]
    split
    · exact .refl x
    · exact .acquire_other c x hown w
  | replace k z =>
    rw [Contents.perform]
    cases x.entry k with
    | some e => exact .put_other hown x _
    | none => exact .refl x
  | select k d => exact .select_other hown x d
  | selected k => exact .refl x
  | remove k =>
    have hother : ∀ k', k'.isOf id = true → (Scope.key k).covers k' = false := by
      refine fun k' hk' => decide_eq_false ?_
      rintro rfl
      cases hown.symm.trans hk'
    exact (forget_other hother x).trans (evict_other c _ (.of (.key k)) .whetherAny w hother)
  | removeSession id' =>
    have hother : ∀ k', k'.isOf id = true → (Scope.session id').covers k' = false := by
      refine fun k' hk' => decide_eq_false fun hsession => ?_
      obtain rfl := Option.some.inj (hsession.symm.trans (of_decide_eq_true hk'))
      cases hown.symm.trans (decide_eq_true rfl)
    exact (forget_other hother x).trans
      (evict_other c _ (.of (.session id')) .theNumber w hother)
  | size => exact .refl x
  | sweepAt now => cases hcommon
  | shutdown => cases hcommon

/-- Only calls for the session make attempts for it. -/
theorem Contents.attemptsOf_perform (x : Contents H) {call : PoolCall H}
    (hown : call.isOf id = false) (w : World) :
    (x.perform c.outside call w).2.2.2.attemptsOf (some id) = w.attemptsOf (some id) := by
  cases call with
  | acquire k =>
    have htarget : (x.target k).session ≠ some id := by
      rw [session_target]
      exact of_decide_eq_false hown
    rw [Contents.perform]
    split
    · rfl
    · rw [Contents.acquire]
      cases x.entry k with
      | some e => rfl
      | none => exact attemptsOf_dial c _ k htarget _ 1 w
  | replace k z =>
    rw [Contents.perform]
    cases x.entry k <;> rfl
  | select k d => rfl
  | selected k => rfl
  | sweepAt now => exact attemptsOf_closed c _ w _
  | remove k => exact attemptsOf_closed c _ w _
  | removeSession id' => exact attemptsOf_closed c _ w _
  | shutdown => exact attemptsOf_closed c _ w _
  | size => rfl

end Calls

/-! ## Runs -/

/-- A call that was carried out. -/
structure Deed (H : Type) where
  call : PoolCall H
  result : PoolResult H
  /-- What was noted about keys meanwhile. -/
  events : List (Event H Empty)

/-- What a session sees of a deed: of its own calls the answer and everything that was noted about
    its keys, of a call for all sessions what was noted about its keys. -/
def Deed.seenBy (id : String) (d : Deed H) :
    Option (PoolCall H × Option (PoolResult H) × List (Event H Empty)) :=
  if d.call.isOf id then some (d.call, some d.result, d.events.filter fun e => e.isOf id)
  else if d.call.isCommon then some (d.call, none, d.events.filter fun e => e.isOf id)
  else none

/-- Carries calls out, each at its instant. -/
def play (c : Connector H) : List (Nat × PoolCall H) → Pool H → World → List (Deed H)
  | [], _, _ => []
  | (instant, call) :: later, p, w =>
    let held := p.perform c.outside call { w with now := instant }
    ⟨call, held.1, happens c.outside p call { w with now := instant }⟩ ::
      play c later held.2.1 held.2.2

/-- The calls that are for a session, and those that are for all. -/
def concerning (id : String) (calls : List (Nat × PoolCall H)) : List (Nat × PoolCall H) :=
  calls.filter fun x => x.2.isOf id || x.2.isCommon

/-! ## Isolation -/

/-- Two pools and their worlds that a session cannot tell apart. -/
structure Alike (id : String) (p q : Pool H) (w w' : World) : Prop where
  tidy : ∃ owns, Tidy owns p
  tidy' : ∃ owns, Tidy owns q
  contents : p.contents.SameFor id q.contents
  attempts : w'.attemptsOf (some id) = w.attemptsOf (some id)

section Alike

variable (c : Connector H) {p q : Pool H} {w w' : World}

/-- Another session's call is not seen. -/
theorem Alike.other (h : Alike id p q w w') {call : PoolCall H} (hown : call.isOf id = false)
    (hcommon : call.isCommon = false) (instant : Nat) :
    Alike id (p.perform c.outside call { w with now := instant }).2.1 q
      (p.perform c.outside call { w with now := instant }).2.2 w' := by
  obtain ⟨owns, htidy⟩ := h.tidy
  obtain ⟨htidy, hmirrors⟩ := htidy.perform_contents c.outside call { w with now := instant }
  have hsame := Contents.SameFor.perform_other c p.contents hown hcommon { w with now := instant }
  have hattempts := Contents.attemptsOf_perform c p.contents hown { w with now := instant }
  rw [hmirrors] at hsame hattempts
  exact ⟨htidy, h.tidy', hsame.symm.trans h.contents, h.attempts.trans hattempts.symm⟩

/-- A call that concerns the session looks the same, and leaves both alike. -/
theorem Alike.concerned (h : Alike id p q w w') {call : PoolCall H}
    (hcall : (call.isOf id || call.isCommon) = true) (instant : Nat) :
    Alike id (p.perform c.outside call { w with now := instant }).2.1
        (q.perform c.outside call { w' with now := instant }).2.1
        (p.perform c.outside call { w with now := instant }).2.2
        (q.perform c.outside call { w' with now := instant }).2.2 ∧
      Deed.seenBy id ⟨call, (p.perform c.outside call { w with now := instant }).1,
          happens c.outside p call { w with now := instant }⟩ =
        Deed.seenBy id ⟨call, (q.perform c.outside call { w' with now := instant }).1,
          happens c.outside q call { w' with now := instant }⟩ := by
  obtain ⟨owns, htidy⟩ := h.tidy
  obtain ⟨owns', htidy'⟩ := h.tidy'
  obtain ⟨hp, hmirrors⟩ := htidy.perform_contents c.outside call { w with now := instant }
  obtain ⟨hq, hmirrors'⟩ := htidy'.perform_contents c.outside call { w' with now := instant }
  rw [Deed.seenBy, Deed.seenBy]
  dsimp only
  cases hown : call.isOf id with
  | true =>
    have hworld : World.SameFor id { w with now := instant } { w' with now := instant } :=
      ⟨rfl, h.attempts⟩
    obtain ⟨hresult, hnoted, hsame, hattempts⟩ := h.contents.perform_own c hown hworld
    rw [hmirrors, hmirrors'] at hresult hnoted hsame hattempts
    dsimp only at hresult hnoted
    rw [hresult, hnoted]
    exact ⟨⟨hp, hq, hsame, hattempts⟩, rfl⟩
  | false =>
    rw [hown, Bool.false_or] at hcall
    have hattempts := Contents.attemptsOf_perform c p.contents hown { w with now := instant }
    have hattempts' := Contents.attemptsOf_perform c q.contents hown { w' with now := instant }
    obtain ⟨hsame, hnoted⟩ := h.contents.perform_common c hcall { w with now := instant }
      { w' with now := instant }
    rw [hmirrors, hmirrors'] at hsame hnoted
    rw [hmirrors] at hattempts
    rw [hmirrors'] at hattempts'
    dsimp only at hnoted
    rw [hnoted]
    exact ⟨⟨hp, hq, hsame, hattempts'.trans (h.attempts.trans hattempts.symm)⟩, rfl⟩

/-- All calls, and those that concern the session. -/
theorem Alike.play (h : Alike id p q w w') (calls : List (Nat × PoolCall H)) :
    (Pool.play c calls p w).filterMap (Deed.seenBy id) =
      (Pool.play c (concerning id calls) q w').filterMap (Deed.seenBy id) := by
  induction calls generalizing p q w w' with
  | nil => rfl
  | cons x later ih =>
    obtain ⟨instant, call⟩ := x
    rw [Pool.play, concerning, List.filter_cons]
    cases hcall : call.isOf id || call.isCommon with
    | true =>
      obtain ⟨halike, hseen⟩ := h.concerned c hcall instant
      rw [if_pos rfl, Pool.play, List.filterMap_cons, List.filterMap_cons, hseen, ih halike,
        concerning]
    | false =>
      obtain ⟨hown, hcommon⟩ := Bool.or_eq_false_iff.mp hcall
      rw [if_neg Bool.false_ne_true, List.filterMap_cons, Deed.seenBy, hown, hcommon]
      exact ih (h.other c hown hcommon instant)

end Alike

/-- Whatever a session asks of a new pool, and whenever all of it is swept or shut down, the session
    sees the same as without the calls of the others: its calls have the same answers, its keys are
    connected with the same targets, reused and replaced alike, and the same of its connections are
    closed. -/
theorem play_isolated (c : Connector H) (settings : PoolSettings) (id : String)
    (calls : List (Nat × PoolCall H)) (w : World) :
    (play c calls (.empty settings) w).filterMap (Deed.seenBy id) =
      (play c (concerning id calls) (.empty settings) w).filterMap (Deed.seenBy id) := by
  have hempty : ∃ owns, Tidy owns (Pool.empty settings : Pool H) := ⟨_, .empty settings⟩
  exact Alike.play c ⟨hempty, hempty, .refl _, rfl⟩ calls

end Pool
end Polyshell
