/-
  What happens in a call that nothing else comes between.

  1. **The journal** — `journal` lists what a call notes about keys, in order, section by section
     along `drive`.  `happens` is that of a whole call.

  2. **Acquisitions** — the connector is called until it answers with a handle or no attempts are
     left (`dialled`, `journal_connect`).

  3. **Evictions** — one handle is noted for each slot that is given up with a connection in it
     (`givenUp`, `journal_round`); they are as many as the eviction counts (`givenUp_length`).

  Then there is one equation for each call: what it comes to, and what happens meanwhile.
-/
import Polyshell.Proofs.Pool.Alone

namespace Polyshell.Pool

variable {H σ : Type}

/-! ## The journal -/

/-- The key that an event is about. -/
def Event.about? {Q : Type} : Event H Q → Option PoolKey
  | .connecting k _ => some k
  | .opened k _ _ => some k
  | .acquired k _ => some k
  | .replaced k _ _ => some k
  | .evicted k _ => some k
  | _ => none

/-- What a section notes about keys, in order. -/
def aboutKeys (p : Pool H) (before after : Point H) : List (Event H Empty) :=
  ((Concert.events p before after).filter fun e => e.about?.isSome).reverse

section Journal

variable (o : Outside σ H)

/-- What a call notes from a point on. -/
def journal : (fuel : Nat) → Pool H → Point H → σ → List (Event H Empty)
  | 0, _, _, _ => []
  | fuel + 1, p, pt, s =>
    match pt.waits p.settings with
    | .ended _ => []
    | w =>
      let came := o.await w s
      let moved := p.advance (o.clock came.2) came.1 pt
      aboutKeys p pt moved.2 ++ journal fuel moved.1 moved.2 came.2

/-- What a whole call notes. -/
def happens (p : Pool H) (c : PoolCall H) (s : σ) : List (Event H Empty) :=
  journal o p.sections p (.start c) s

/-! ## Acquisitions -/

/-- What dialling notes behind its first call of the connector. -/
def dialled (settings : PoolSettings) (k target : PoolKey) :
    (left attempt : Nat) → σ → List (Event H Empty)
  | 0, _, s =>
    match outcome settings k (o.connect target s).1 with
    | .ok h => [.opened k target h, .acquired k h]
    | .error _ => []
  | left + 1, attempt, s =>
    match outcome settings k (o.connect target s).1 with
    | .ok h => [.opened k target h, .acquired k h]
    | .error _ =>
      .connecting k target :: dialled settings k target left (attempt + 1)
        (o.pause (settings.pause attempt) (o.connect target s).2)

theorem journal_connect_succ (fuel : Nat) (p : Pool H) (k : PoolKey) (i : Nat) (target : PoolKey)
    (attempt : Nat) (s : σ) : journal o (fuel + 2) p (.connect k i target attempt) s =
      match outcome p.settings k (o.connect target s).1 with
      | .ok h => [.opened k target h, .acquired k h]
      | .error e =>
        journal o (fuel + 1) p (p.afterFailure k i target attempt e) (o.connect target s).2 := by
  have hstep : journal o (fuel + 2) p (.connect k i target attempt) s =
      aboutKeys p (.connect k i target attempt) (p.advance (o.clock (o.connect target s).2)
        (o.connect target s).1 (.connect k i target attempt)).2 ++
      journal o (fuel + 1)
        (p.advance (o.clock (o.connect target s).2) (o.connect target s).1
          (.connect k i target attempt)).1
        (p.advance (o.clock (o.connect target s).2) (o.connect target s).1
          (.connect k i target attempt)).2 (o.connect target s).2 := rfl
  rw [hstep, advance_connect]
  cases outcome p.settings k (o.connect target s).1 with
  | ok h => rfl
  | error e =>
    dsimp only
    rw [afterFailure]
    split <;> rfl

/-- From its first call of the connector on, `acquire` notes what dialling does. -/
theorem journal_connect {p : Pool H} {k target : PoolKey} {i attempt fuel : Nat} (left : Nat)
    (ha : attempt + left = p.settings.attempts) (hf : 2 * left + 2 ≤ fuel) (s : σ) :
    journal o fuel p (.connect k i target attempt) s =
      dialled o p.settings k target left attempt s := by
  obtain ⟨fuel, rfl⟩ : ∃ fuel', fuel = fuel' + 2 := ⟨fuel - 2, by omega⟩
  induction left generalizing attempt fuel s with
  | zero =>
    rw [journal_connect_succ, dialled]
    cases outcome p.settings k (o.connect target s).1 with
    | ok h => rfl
    | error e =>
      have hlast : p.afterFailure k i target attempt e = .done (.handle (.error e)) := by
        rw [afterFailure, if_neg (by omega)]
      dsimp only
      rw [hlast]
      rfl
  | succ left ih =>
    obtain ⟨fuel, rfl⟩ : ∃ fuel', fuel = fuel' + 2 := ⟨fuel - 2, by omega⟩
    rw [journal_connect_succ, dialled]
    cases outcome p.settings k (o.connect target s).1 with
    | ok h => rfl
    | error e =>
      have hagain : p.afterFailure k i target attempt e = .pause k i target attempt := by
        rw [afterFailure, if_pos (by omega)]
      dsimp only
      rw [hagain]
      exact congrArg (Event.connecting k target :: ·) (ih (by omega) _ _ (by omega))

/-- `acquire` notes that it reuses a connection, or that it dials. -/
theorem happens_acquire {p : Pool H} {k : PoolKey}
    (hopen : (p.link k).2.isRetired (p.link k).1 = false) (s : σ) :
    happens o p (.acquire k) s =
      if p.closed then []
      else match (p.link k).2.entryAt? (p.link k).1 with
        | some e => [.acquired k e.handle]
        | none =>
          .connecting k (p.target k) ::
            dialled o p.settings k (p.target k) (p.settings.attempts - 1) 1 s := by
  have hattempts := attempts_pred p.settings
  rw [happens, sections_eq]
  have hstart : ∀ fuel, journal o (fuel + 1) p (.start (.acquire k)) s =
      aboutKeys p (.start (.acquire k)) (p.beginAcquire k) ++
        journal o fuel p (p.beginAcquire k) s :=
    fun _ => rfl
  rw [hstart, beginAcquire]
  split
  · rfl
  · have hlink : ∀ fuel, journal o (fuel + 2) p (.link k) s =
        aboutKeys p (.link k) (.enter k (p.link k).1) ++
        (aboutKeys (p.link k).2 (.enter k (p.link k).1)
          ((p.link k).2.advance (o.clock s) .timedOut (.enter k (p.link k).1)).2 ++
        journal o fuel
          ((p.link k).2.advance (o.clock s) .timedOut (.enter k (p.link k).1)).1
          ((p.link k).2.advance (o.clock s) .timedOut (.enter k (p.link k).1)).2 s) := fun _ => rfl
    -- that a slot was made is about no key that is noted
    have hmade : aboutKeys p (.link k) (.enter k (p.link k).1) = [] := by
      rw [aboutKeys, Concert.events, Concert.ended]
      split <;> rfl
    have hquiet : aboutKeys p (.start (.acquire k)) (.link k) = [] := rfl
    rw [hquiet, hlink, hmade, advance, hopen, if_neg Bool.false_ne_true]
    cases (p.link k).2.entryAt? (p.link k).1 with
    | some e => rfl
    | none =>
      have haim : ∀ fuel, journal o (fuel + 1) (p.link k).2 (.aim k (p.link k).1) s =
          .connecting k ((p.link k).2.target k) ::
            journal o fuel (p.link k).2 (.connect k (p.link k).1 ((p.link k).2.target k) 1) s :=
        fun _ => rfl
      have henter : aboutKeys (p.link k).2 (.enter k (p.link k).1) (.aim k (p.link k).1) = [] := rfl
      dsimp only
      rw [henter, List.nil_append, List.nil_append, List.nil_append, haim,
        journal_connect o (p.settings.attempts - 1) (by rw [settings_link]; exact hattempts)
          (by omega), settings_link, target_link]

/-! ## Evictions -/

/-- What an eviction notes: the handles that it takes out of the slots of a list. -/
def givenUp (e : Eviction) : List (PoolKey × Nat) → Pool H → List (Event H Empty)
  | [], _ => []
  | (k, i) :: rest, p =>
    if p.isRetired i || !p.evicts e i then givenUp e rest p
    else match (p.retire i).entryAt? i with
      | some x => .evicted k x.handle :: givenUp e rest (((p.retire i).unlink k i).clear i)
      | none => givenUp e rest ((p.retire i).unlink k i)

/-- They are as many as it counts. -/
theorem givenUp_length (e : Eviction) (rest : List (PoolKey × Nat)) (p : Pool H) (s : σ) :
    (givenUp e rest p).length = (giveUp o e rest p s).1 := by
  induction rest generalizing p s with
  | nil => rfl
  | cons x rest ih =>
    obtain ⟨k, i⟩ := x
    rw [givenUp, giveUp]
    split
    · exact ih p s
    · cases (p.retire i).entryAt? i with
      | some x => exact congrArg (· + 1) (ih _ _)
      | none => exact ih _ s

/-- On the way to the next slot, or to the end of an eviction, nothing is noted. -/
theorem aboutKeys_next (p : Pool H) (pt : Point H) (r : Round) : aboutKeys p pt r.next = [] := by
  obtain ⟨e, a, rest, closed⟩ := r
  cases rest with
  | nil => cases a <;> cases pt <;> rfl
  | cons x rest => cases pt <;> rfl

/-- An eviction notes what it takes out of the slots that it has still to look at. -/
theorem journal_round (e : Eviction) (a : Account) (rest : List (PoolKey × Nat))
    (closed fuel : Nat) (hf : 3 * rest.length + 1 ≤ fuel) (p : Pool H) (s : σ) :
    journal o fuel p (Round.mk e a rest closed).next s = givenUp e rest p := by
  induction rest generalizing closed fuel p s with
  | nil =>
    obtain ⟨fuel, rfl⟩ : ∃ fuel', fuel = fuel' + 1 := ⟨fuel - 1, by omega⟩
    rfl
  | cons x rest ih =>
    obtain ⟨k, i⟩ := x
    rw [List.length_cons] at hf
    obtain ⟨fuel, rfl⟩ : ∃ fuel', fuel = fuel' + 4 := ⟨fuel - 4, by omega⟩
    have hvisit : journal o (fuel + 4) p (Round.mk e a ((k, i) :: rest) closed).next s =
        aboutKeys p (.visit k i ⟨e, a, rest, closed⟩)
          (p.advance (o.clock s) .timedOut (.visit k i ⟨e, a, rest, closed⟩)).2 ++
        journal o (fuel + 3) (p.advance (o.clock s) .timedOut (.visit k i ⟨e, a, rest, closed⟩)).1
          (p.advance (o.clock s) .timedOut (.visit k i ⟨e, a, rest, closed⟩)).2 s := rfl
    rw [hvisit, advance, givenUp]
    split
    · dsimp only
      rw [aboutKeys_next]
      exact ih closed (fuel + 3) (by omega) p s
    · have hunlink : ∀ q : Pool H, journal o (fuel + 3) q (.unlink k i ⟨e, a, rest, closed⟩) s =
          aboutKeys q (.unlink k i ⟨e, a, rest, closed⟩)
            (q.advance (o.clock s) .timedOut (.unlink k i ⟨e, a, rest, closed⟩)).2 ++
          journal o (fuel + 2) (q.advance (o.clock s) .timedOut (.unlink k i ⟨e, a, rest, closed⟩)).1
            (q.advance (o.clock s) .timedOut (.unlink k i ⟨e, a, rest, closed⟩)).2 s := fun _ => rfl
      have hretired : ∀ q : Pool H, aboutKeys q (.visit k i ⟨e, a, rest, closed⟩)
          (.unlink k i ⟨e, a, rest, closed⟩) = [] := fun _ => rfl
      dsimp only
      rw [hretired, List.nil_append, hunlink, advance]
      cases (p.retire i).entryAt? i with
      | none =>
        dsimp only
        rw [aboutKeys_next]
        exact ih closed (fuel + 2) (by omega) _ s
      | some x =>
        have hclose : ∀ q : Pool H, journal o (fuel + 2) q (.close i x.handle ⟨e, a, rest, closed⟩) s =
            aboutKeys q (.close i x.handle ⟨e, a, rest, closed⟩)
              (Round.mk e a rest (closed + 1)).next ++
            journal o (fuel + 1) q (Round.mk e a rest (closed + 1)).next (o.close x.handle s) :=
          fun _ => rfl
        have htaken : ∀ q : Pool H, aboutKeys q (.unlink k i ⟨e, a, rest, closed⟩)
            (.close i x.handle ⟨e, a, rest, closed⟩) = [.evicted k x.handle] := fun _ => rfl
        dsimp only
        rw [htaken, hclose, aboutKeys_next, List.nil_append,
          ih (closed + 1) (fuel + 1) (by omega)]
        rfl

/-! ## Calls -/

/-- What a call comes to that begins by giving keys up. -/
theorem drive_forget (scope : Scope) (a : Account) (fuel : Nat) (p : Pool H)
    (hf : 3 * p.links.length + 3 ≤ fuel) (s : σ) :
    drive o fuel p (.forget scope a) s =
        (a.result (giveUp o (.of scope) (p.linksIn scope) (p.forget scope) s).1,
          (giveUp o (.of scope) (p.linksIn scope) (p.forget scope) s).2) ∧
      journal o fuel p (.forget scope a) s =
        givenUp (.of scope) (p.linksIn scope) (p.forget scope) := by
  have hlength : (p.linksIn scope).length ≤ p.links.length := List.length_filter_le _ _
  obtain ⟨fuel, rfl⟩ : ∃ fuel', fuel = fuel' + 2 := ⟨fuel - 2, by omega⟩
  constructor
  · have hstart : drive o (fuel + 2) p (.forget scope a) s = drive o fuel (p.forget scope)
        (Round.mk (.of scope) a (p.linksIn scope) 0).next s := rfl
    rw [hstart, drive_round o _ _ _ _ _ (by omega), Nat.zero_add]
  · have hstart : journal o (fuel + 2) p (.forget scope a) s =
        aboutKeys p (.forget scope a) (.survey (.of scope) a) ++
        (aboutKeys (p.forget scope) (.survey (.of scope) a)
          (Round.mk (.of scope) a (p.linksIn scope) 0).next ++
        journal o fuel (p.forget scope) (Round.mk (.of scope) a (p.linksIn scope) 0).next s) := rfl
    have hforgotten : aboutKeys p (.forget scope a) (.survey (.of scope) a) = [] := rfl
    rw [hstart, hforgotten, aboutKeys_next, journal_round o _ _ _ _ _ (by omega)]
    rfl

end Journal

end Polyshell.Pool
