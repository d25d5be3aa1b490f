/-
  Pool calls that nothing else comes between.

  1. **Runs** — for each call one equation says what it comes to, without points and without fuel: the
     bound on the number of sections is never reached.  `acquire` reuses or dials (`perform_acquire`),
     an operation that gives connections up goes through a list of slots (`drive_round`), and the
     others are a single change.

  2. **Between two calls** — `Tidy owns p`: slots and table are in order, and no slot in the table was
     given up.  `live? p k` is the handle that the pool has for a key.

  3. **What a call changes** — `acquire` gives the live handle of its key, or opens one with the key's
     target (`Tidy.acquire`); `replace` puts another in its place (`Tidy.replace`); a sweep only takes
     handles away (`Tidy.sweepAt`).
-/
import Polyshell.Pool.Operation
import Polyshell.Proofs.Pool.Slots

namespace Polyshell.Pool

variable {H σ : Type}

/-! ## Runs -/

section Runs

variable (o : Outside σ H)

theorem sections_eq (p : Pool H) :
    p.sections = 2 * p.settings.attempts + 3 * p.links.length + 8 := by
  rw [sections]
  omega

/-- What an attempt comes to. -/
def outcome (settings : PoolSettings) (k : PoolKey) : Attempt H → Except ShellError H
  | .opened h => .ok h
  | .failed e => .error e
  | .timedOut => .error (timeout settings k)

theorem advance_connect (p : Pool H) (now : Nat) (got : Attempt H) (k : PoolKey) (i : Nat)
    (target : PoolKey) (attempt : Nat) : p.advance now got (.connect k i target attempt) =
      match outcome p.settings k got with
      | .ok h => (p.store i h now, .done (.handle (.ok h)))
      | .error e => (p, p.afterFailure k i target attempt e) := by
  cases got <;> rfl

/-- Calls the connector, and again behind an attempt that failed while any attempts are left. -/
def dial (settings : PoolSettings) (k target : PoolKey) :
    (left attempt : Nat) → σ → Except ShellError H × σ
  | 0, _, s => (outcome settings k (o.connect target s).1, (o.connect target s).2)
  | left + 1, attempt, s =>
    match outcome settings k (o.connect target s).1 with
    | .ok h => (.ok h, (o.connect target s).2)
    | .error _ =>
      dial settings k target left (attempt + 1)
        (o.pause (settings.pause attempt) (o.connect target s).2)

theorem opened_of_outcome {settings : PoolSettings} {k : PoolKey} {got : Attempt H} {h : H}
    (hg : outcome settings k got = .ok h) : got = .opened h := by
  cases got with
  | opened x =>
    cases hg
    rfl
  | _ => cases hg

/-- A handle that dialling gave came from the connector. -/
theorem opened_of_dial {settings : PoolSettings} {k target : PoolKey} {left attempt : Nat} {s : σ}
    {h : H} (hd : (dial o settings k target left attempt s).1 = .ok h) :
    ∃ s', (o.connect target s').1 = .opened h := by
  induction left generalizing attempt s with
  | zero => exact ⟨s, opened_of_outcome hd⟩
  | succ left ih =>
    rw [dial] at hd
    split at hd
    · next x hx =>
      cases hd
      exact ⟨s, opened_of_outcome hx⟩
    · exact ih hd

/-- The slot behind dialling. -/
def stored (p : Pool H) (i : Nat) (r : Except ShellError H × σ) : Pool H :=
  match r.1 with
  | .ok h => p.store i h (o.clock r.2)
  | .error _ => p

theorem drive_connect_succ (fuel : Nat) (p : Pool H) (k : PoolKey) (i : Nat) (target : PoolKey)
    (attempt : Nat) (s : σ) : drive o (fuel + 1) p (.connect k i target attempt) s =
      match outcome p.settings k (o.connect target s).1 with
      | .ok h =>
        drive o fuel (p.store i h (o.clock (o.connect target s).2)) (.done (.handle (.ok h)))
          (o.connect target s).2
      | .error e => drive o fuel p (p.afterFailure k i target attempt e) (o.connect target s).2 := by
  have hstep : drive o (fuel + 1) p (.connect k i target attempt) s = drive o fuel
      (p.advance (o.clock (o.connect target s).2) (o.connect target s).1
        (.connect k i target attempt)).1
      (p.advance (o.clock (o.connect target s).2) (o.connect target s).1
        (.connect k i target attempt)).2 (o.connect target s).2 := rfl
  rw [hstep, advance_connect]
  cases outcome p.settings k (o.connect target s).1 <;> rfl

/-- From its first call of the connector on, `acquire` dials. -/
theorem drive_connect {p : Pool H} {k target : PoolKey} {i attempt fuel : Nat} (left : Nat)
    (ha : attempt + left = p.settings.attempts) (hf : 2 * left + 2 ≤ fuel) (s : σ) :
    drive o fuel p (.connect k i target attempt) s =
      (.handle (dial o p.settings k target left attempt s).1,
        stored o p i (dial o p.settings k target left attempt s),
        (dial o p.settings k target left attempt s).2) := by
  obtain ⟨fuel, rfl⟩ : ∃ fuel', fuel = fuel' + 2 := ⟨fuel - 2, by omega⟩
  induction left generalizing attempt fuel s with
  | zero =>
    rw [drive_connect_succ, dial, stored]
    cases outcome p.settings k (o.connect target s).1 with
    | ok h => rfl
    | error e =>
      have hlast : p.afterFailure k i target attempt e = .done (.handle (.error e)) := by
        rw [afterFailure, if_neg (by omega)]
      dsimp only
      rw [hlast]
      rfl
  | succ left ih =>
    obtain ⟨fuel, rfl⟩ : ∃ fuel', fuel = fuel' + 2 := ⟨fuel - 2, by omega⟩
    rw [drive_connect_succ, dial]
    cases outcome p.settings k (o.connect target s).1 with
    | ok h => rfl
    | error e =>
      have hagain : p.afterFailure k i target attempt e = .pause k i target attempt := by
        rw [afterFailure, if_pos (by omega)]
      dsimp only
      rw [hagain]
      exact ih (by omega) _ _ (by omega)

theorem settings_link (p : Pool H) (k : PoolKey) : (p.link k).2.settings = p.settings := by
  rw [link]
  split <;> rfl

theorem selected_link (p : Pool H) (k : PoolKey) : (p.link k).2.selected = p.selected := by
  rw [link]
  split <;> rfl

theorem target_link (p : Pool H) (k k' : PoolKey) : (p.link k).2.target k' = p.target k' := by
  rw [target, target, selection?, selection?, selected_link]

/-- The first attempt and those behind it are all. -/
theorem attempts_pred (settings : PoolSettings) :
    1 + (settings.attempts - 1) = settings.attempts := by
  have hone : 1 ≤ settings.attempts := Nat.le_max_left 1 _
  omega

/-- `acquire` reuses the connection in the slot of its key, or dials; `hopen` says that the slot was
    not given up. -/
theorem perform_acquire {p : Pool H} {k : PoolKey}
    (hopen : (p.link k).2.isRetired (p.link k).1 = false) (s : σ) :
    p.perform o (.acquire k) s =
      if p.closed then (.handle (.error (.connection .poolClosed)), p, s)
      else match (p.link k).2.entryAt? (p.link k).1 with
        | some e => (.handle (.ok e.handle), (p.link k).2.touch (p.link k).1 (o.clock s), s)
        | none =>
          (.handle (dial o p.settings k (p.target k) (p.settings.attempts - 1) 1 s).1,
            stored o (p.link k).2 (p.link k).1
              (dial o p.settings k (p.target k) (p.settings.attempts - 1) 1 s),
            (dial o p.settings k (p.target k) (p.settings.attempts - 1) 1 s).2) := by
  have hattempts := attempts_pred p.settings
  rw [perform, sections_eq]
  have hstart : ∀ fuel, drive o (fuel + 1) p (.start (.acquire k)) s =
      drive o fuel p (p.beginAcquire k) s := fun _ => rfl
  rw [hstart, beginAcquire]
  split
  · rfl
  · have hlink : ∀ fuel, drive o (fuel + 2) p (.link k) s = drive o fuel
        ((p.link k).2.advance (o.clock s) .timedOut (.enter k (p.link k).1)).1
        ((p.link k).2.advance (o.clock s) .timedOut (.enter k (p.link k).1)).2 s := fun _ => rfl
    rw [hlink, advance, hopen, if_neg Bool.false_ne_true]
    cases (p.link k).2.entryAt? (p.link k).1 with
    | some e => rfl
    | none =>
      have haim : ∀ fuel, drive o (fuel + 1) (p.link k).2 (.aim k (p.link k).1) s = drive o fuel
          (p.link k).2 (.connect k (p.link k).1 ((p.link k).2.target k) 1) s := fun _ => rfl
      dsimp only
      rw [haim, drive_connect o (p.settings.attempts - 1) (by rw [settings_link]; exact hattempts)
        (by omega), settings_link, target_link]

theorem perform_select (p : Pool H) (k : PoolKey) (d : String) (s : σ) :
    p.perform o (.select k d) s = (.nothing, p.select k d, s) := by
  rw [perform, sections_eq]
  rfl

/-- `replace` changes the handle of a slot that is in use. -/
theorem perform_replace {p : Pool H} {k : PoolKey} {i : Nat} (hi : p.slotOf? k = some i)
    (hopen : p.isRetired i = false) {e : PoolEntry H} (he : p.entryAt? i = some e) (h : H) (s : σ) :
    p.perform o (.replace k h) s = (.handle (.ok e.handle), p.store i h (o.clock s), s) := by
  rw [perform, sections_eq]
  have hfind : ∀ fuel, drive o (fuel + 2) p (.start (.replace k h)) s = drive o fuel
      (p.advance (o.clock s) .timedOut (.find k h)).1 (p.advance (o.clock s) .timedOut (.find k h)).2
      s := fun _ => rfl
  have hswap : ∀ fuel, drive o (fuel + 1) p (.swap k i h) s = drive o fuel
      (p.advance (o.clock s) .timedOut (.swap k i h)).1
      (p.advance (o.clock s) .timedOut (.swap k i h)).2 s := fun _ => rfl
  rw [hfind, advance, hi]
  dsimp only
  rw [hswap, advance, hopen, if_neg Bool.false_ne_true, he]
  rfl

/-- Gives up the slots of a list that an eviction picks; the number is that of the connections. -/
def giveUp (e : Eviction) : List (PoolKey × Nat) → Pool H → σ → Nat × Pool H × σ
  | [], p, s => (0, p, s)
  | (k, i) :: rest, p, s =>
    if p.isRetired i || !p.evicts e i then giveUp e rest p s
    else match (p.retire i).entryAt? i with
      | some x =>
        let later := giveUp e rest (((p.retire i).unlink k i).clear i) (o.close x.handle s)
        (later.1 + 1, later.2)
      | none => giveUp e rest ((p.retire i).unlink k i) s

/-- An eviction gives up the slots that it has still to look at. -/
theorem drive_round (e : Eviction) (a : Account) (rest : List (PoolKey × Nat)) (closed fuel : Nat)
    (hf : 3 * rest.length + 1 ≤ fuel) (p : Pool H) (s : σ) :
    drive o fuel p (Round.mk e a rest closed).next s =
      (a.result (closed + (giveUp o e rest p s).1), (giveUp o e rest p s).2) := by
  induction rest generalizing closed fuel p s with
  | nil =>
    obtain ⟨fuel, rfl⟩ : ∃ fuel', fuel = fuel' + 1 := ⟨fuel - 1, by omega⟩
    rfl
  | cons x rest ih =>
    obtain ⟨k, i⟩ := x
    rw [List.length_cons] at hf
    obtain ⟨fuel, rfl⟩ : ∃ fuel', fuel = fuel' + 4 := ⟨fuel - 4, by omega⟩
    have hvisit : drive o (fuel + 4) p (Round.mk e a ((k, i) :: rest) closed).next s =
        drive o (fuel + 3) (p.advance (o.clock s) .timedOut (.visit k i ⟨e, a, rest, closed⟩)).1
          (p.advance (o.clock s) .timedOut (.visit k i ⟨e, a, rest, closed⟩)).2 s := rfl
    rw [hvisit, advance, giveUp]
    split
    · exact ih closed (fuel + 3) (by omega) p s
    · have hunlink : ∀ q : Pool H, drive o (fuel + 3) q (.unlink k i ⟨e, a, rest, closed⟩) s =
          drive o (fuel + 2) (q.advance (o.clock s) .timedOut (.unlink k i ⟨e, a, rest, closed⟩)).1
            (q.advance (o.clock s) .timedOut (.unlink k i ⟨e, a, rest, closed⟩)).2 s := fun _ => rfl
      dsimp only
      rw [hunlink, advance]
      cases (p.retire i).entryAt? i with
      | none => exact ih closed (fuel + 2) (by omega) _ s
      | some x =>
        have hclose : ∀ q : Pool H, drive o (fuel + 2) q (.close i x.handle ⟨e, a, rest, closed⟩) s =
            drive o (fuel + 1) q (Round.mk e a rest (closed + 1)).next (o.close x.handle s) :=
          fun _ => rfl
        dsimp only
        rw [hclose, ih (closed + 1) (fuel + 1) (by omega)]
        simp only [Nat.add_assoc, Nat.add_comm 1]

theorem perform_sweepAt (p : Pool H) (now : Nat) (s : σ) : p.perform o (.sweepAt now) s =
    (.number (giveUp o (.idleAt now) (p.linksIn .all) p s).1,
      (giveUp o (.idleAt now) (p.linksIn .all) p s).2) := by
  have hlength : (p.linksIn .all).length ≤ p.links.length := List.length_filter_le _ _
  rw [perform, sections_eq]
  have hstart : ∀ fuel, drive o (fuel + 2) p (.start (.sweepAt now)) s = drive o fuel p
      (Round.mk (.idleAt now) .theNumber (p.linksIn .all) 0).next s := fun _ => rfl
  rw [hstart, drive_round o _ _ _ _ _ (by omega), Nat.zero_add]
  rfl

end Runs

/-! ## Between two calls -/

/-- What holds of a pool between two calls that nothing comes between. -/
structure Tidy (owns : PoolKey → Nat → Prop) (p : Pool H) : Prop where
  orderly : Orderly owns p
  /-- No slot in the table was given up. -/
  fresh : ∀ k i, (k, i) ∈ p.links → p.isRetired i = false

/-- The handle that a pool has for a key. -/
def live? (p : Pool H) (k : PoolKey) : Option H := (p.slotOf? k).bind p.handle?

theorem entryAt?_of_length_le {p : Pool H} {i : Nat} (h : p.slots.length ≤ i) :
    p.entryAt? i = none := by
  rw [entryAt?, slot, List.getElem?_eq_none h]
  rfl

/-- A slot that is made is empty. -/
theorem entryAt?_link (p : Pool H) (k : PoolKey) (i : Nat) :
    (p.link k).2.entryAt? i = p.entryAt? i := by
  cases hk : p.slotOf? k with
  | some j => rw [link_of_some hk]
  | none =>
    rcases Nat.lt_trichotomy i p.slots.length with hi | rfl | hi
    · rw [entryAt?, entryAt?, slot_link p k hi]
    · rw [entryAt?_of_length_le (Nat.le_refl _), link_of_none hk, entryAt?, slot,
        List.getElem?_concat_length]
      rfl
    · rw [entryAt?_of_length_le (Nat.le_of_lt hi), entryAt?_of_length_le]
      rw [link_of_none hk, List.length_append]
      exact hi

theorem handle?_of_length_le {p : Pool H} {i : Nat} (h : p.slots.length ≤ i) :
    p.handle? i = none := by
  rw [handle?, entryAt?_of_length_le h]
  rfl

theorem handle?_link (p : Pool H) (k : PoolKey) (i : Nat) :
    (p.link k).2.handle? i = p.handle? i := by
  rw [handle?, entryAt?_link, handle?]

theorem live?_eq_some {owns : PoolKey → Nat → Prop} {p : Pool H} (h : Orderly owns p)
    {k : PoolKey} {x : H} : p.live? k = some x ↔ ∃ i, (k, i) ∈ p.links ∧ p.handle? i = some x := by
  rw [live?, Option.bind_eq_some_iff]
  exact exists_congr fun i => and_congr_left fun _ => ⟨mem_of_slotOf?, h.slotOf?_eq_some⟩

/-- A slot that is given up and leaves the table empty. -/
theorem Orderly.unlinked {owns : PoolKey → Nat → Prop} {p : Pool H} (h : Orderly owns p)
    {k : PoolKey} {i : Nat} (hi : owns k i) (he : (p.retire i).entryAt? i = none) :
    Orderly owns ((p.retire i).unlink k i) ∧
      ∀ j, i ≠ j → ((p.retire i).unlink k i).slot j = p.slot j := by
  have hretired : (p.retire i).isRetired i = true := by
    rw [isRetired, Pool.retire, slot_modify p i _ i (h.made k i hi), if_pos rfl]
  exact ⟨(h.retire i).unlink hretired he k, fun j hj => slot_modify_of_ne p _ hj⟩

/-- A slot that is given up, leaves the table and is emptied. -/
theorem Orderly.cleared {owns : PoolKey → Nat → Prop} {p : Pool H} (h : Orderly owns p)
    {k : PoolKey} {i : Nat} (hi : owns k i) :
    Orderly owns (((p.retire i).unlink k i).clear i) ∧
      ∀ j, i ≠ j → (((p.retire i).unlink k i).clear i).slot j = p.slot j := by
  have hmade := (h.retire i).made k i hi
  have hclear : ((p.retire i).clear i).isRetired i = true ∧
      ((p.retire i).clear i).entryAt? i = none := by
    rw [isRetired, entryAt?, Pool.clear, slot_modify _ i _ i hmade, if_pos rfl, Pool.retire,
      slot_modify p i _ i (h.made k i hi), if_pos rfl]
    exact ⟨rfl, rfl⟩
  refine ⟨((h.retire i).clear i).unlink hclear.1 hclear.2 k, fun j hj => ?_⟩
  rw [Pool.clear, slot_modify_of_ne _ _ hj]
  exact slot_modify_of_ne p _ hj

namespace Tidy

variable {owns : PoolKey → Nat → Prop} {p : Pool H}

theorem empty (settings : PoolSettings) : Tidy (fun _ _ => False) (Pool.empty settings : Pool H) :=
  ⟨.empty settings fun _ _ h => h, fun _ _ h => absurd h List.not_mem_nil⟩

theorem select (h : Tidy owns p) (k : PoolKey) (d : String) : Tidy owns (p.select k d) :=
  ⟨h.orderly.congr rfl (List.Perm.refl _), h.fresh⟩

/-- A change of one slot that gives nothing up. -/
theorem modify (h : Tidy owns p) {i : Nat} {f : PoolSlot H → PoolSlot H}
    (ho : Orderly owns (p.modify i f)) (hf : ∀ x, (f x).retired = x.retired) :
    Tidy owns (p.modify i f) := by
  refine ⟨ho, fun k j hj => ?_⟩
  rw [isRetired, slot_modify p i f j (h.orderly.made k j (h.orderly.linked k j hj))]
  split
  · rw [hf]
    exact h.fresh k j hj
  · exact h.fresh k j hj

theorem touch (h : Tidy owns p) (i now : Nat) : Tidy owns (p.touch i now) :=
  h.modify (h.orderly.touch i now) fun _ => rfl

theorem store (h : Tidy owns p) {i : Nat} (hr : p.isRetired i = false) (x : H) (now : Nat) :
    Tidy owns (p.store i x now) :=
  h.modify (h.orderly.store hr x now) fun _ => rfl

/-- The slot of a key is in the table and was not given up, also when it was just made. -/
theorem link (h : Tidy owns p) (k : PoolKey) : ∃ owns', Tidy owns' (p.link k).2 ∧
    (k, (p.link k).1) ∈ (p.link k).2.links ∧ ∀ k', (p.link k).2.live? k' = p.live? k' := by
  cases hk : p.slotOf? k with
  | some i =>
    rw [link_of_some hk]
    exact ⟨owns, h, mem_of_slotOf? hk, fun _ => rfl⟩
  | none =>
    refine ⟨_, ⟨h.orderly.link hk, fun k' j hj => ?_⟩, ?_, fun k' => ?_⟩
    · rw [link_of_none hk] at hj
      rcases List.mem_append.mp hj with hj | hj
      · rw [isRetired, slot_link p k (h.orderly.made k' j (h.orderly.linked k' j hj))]
        exact h.fresh k' j hj
      · obtain ⟨-, rfl⟩ := Prod.mk.inj (List.mem_singleton.mp hj)
        rw [link_of_none hk, isRetired, slot, List.getElem?_concat_length]
        rfl
    · rw [link_of_none hk]
      exact List.mem_append_right _ List.mem_cons_self
    · refine Option.ext fun x => ?_
      rw [live?_eq_some (h.orderly.link hk), live?_eq_some h.orderly]
      refine exists_congr fun j => ?_
      rw [handle?_link, link_of_none hk, List.mem_append, or_and_right]
      refine or_iff_left ?_
      rintro ⟨hj, hx⟩
      obtain ⟨-, rfl⟩ := Prod.mk.inj (List.mem_singleton.mp hj)
      rw [handle?_of_length_le (Nat.le_refl _)] at hx
      cases hx

/-- A change of one slot changes the handle of no other key. -/
theorem live?_store (h : Tidy owns p) {k : PoolKey} {i : Nat} (hi : (k, i) ∈ p.links) (x : H)
    (now : Nat) : (p.store i x now).live? k = some x ∧
      ∀ k', k' ≠ k → (p.store i x now).live? k' = p.live? k' := by
  have hmade := h.orderly.made k i (h.orderly.linked k i hi)
  have ho := h.orderly.store (h.fresh k i hi) x now
  refine ⟨(live?_eq_some ho).mpr ⟨i, hi, handle?_store p hmade x now⟩, fun k' hk' => ?_⟩
  refine Option.ext fun y => ?_
  rw [live?_eq_some ho, live?_eq_some h.orderly]
  refine exists_congr fun j => and_congr_right fun hj => ?_
  have hji : i ≠ j := by
    rintro rfl
    exact hk' (h.orderly.unique k' k i (h.orderly.linked k' i hj) (h.orderly.linked k i hi))
  rw [Pool.store, handle?_of_slot (slot_modify_of_ne p _ hji)]

theorem live?_touch (p : Pool H) (i now : Nat) (k : PoolKey) :
    (p.touch i now).live? k = p.live? k := by
  rw [live?, live?, show (p.touch i now).handle? = p.handle? from funext (handle?_touch p i now)]
  rfl

/-! ## What a call changes -/

variable (o : Outside σ H)

/-- An acquisition gives the live handle of its key, which it opens with the key's target if there is
    none, and changes nothing for other keys. -/
theorem acquire (h : Tidy owns p) (k : PoolKey) (s : σ) :
    ∃ owns' r, (p.perform o (.acquire k) s).1 = .handle r ∧
      Tidy owns' (p.perform o (.acquire k) s).2.1 ∧
      (∀ x, r = .ok x → (p.perform o (.acquire k) s).2.1.live? k = some x) ∧
      (∀ x, (p.perform o (.acquire k) s).2.1.live? k = some x →
        p.live? k = some x ∨ ∃ s', (o.connect (p.target k) s').1 = .opened x) ∧
      ∀ k', k' ≠ k → (p.perform o (.acquire k) s).2.1.live? k' = p.live? k' := by
  obtain ⟨owns', hlinked, hmem, hlive⟩ := h.link k
  have hopen := hlinked.fresh k _ hmem
  rw [perform_acquire o hopen]
  split
  · exact ⟨owns, _, rfl, h, fun _ hx => (by cases hx), fun x hx => Or.inl hx, fun _ _ => rfl⟩
  · split
    · next e he =>
      have hreused : (p.link k).2.live? k = some e.handle := by
        rw [live?_eq_some hlinked.orderly]
        refine ⟨_, hmem, ?_⟩
        rw [handle?, he]
        rfl
      refine ⟨owns', _, rfl, hlinked.touch _ _, fun x hx => ?_, fun x hx => ?_, fun k' _ => ?_⟩
      · cases hx
        rw [live?_touch]
        exact hreused
      · rw [live?_touch, hlive] at hx
        exact Or.inl hx
      · rw [live?_touch, hlive]
    · generalize hd : dial o p.settings k (p.target k) (p.settings.attempts - 1) 1 s = d
      obtain ⟨r, s'⟩ := d
      refine ⟨owns', r, rfl, ?_⟩
      cases r with
      | error e =>
        exact ⟨hlinked, fun _ hx => (by cases hx),
          fun x hx => Or.inl ((hlive k).symm.trans hx), fun k' _ => hlive k'⟩
      | ok x =>
        obtain ⟨hself, hother⟩ := hlinked.live?_store hmem x (o.clock s')
        refine ⟨hlinked.store hopen x _, fun y hy => ?_, fun y hy => ?_, fun k' hk' => ?_⟩
        · cases hy
          exact hself
        · obtain rfl := Option.some.inj (hself.symm.trans hy)
          exact Or.inr (opened_of_dial o (congrArg Prod.fst hd))
        · exact (hother k' hk').trans (hlive k')

/-- Another handle takes the place of the one that is live. -/
theorem replace (h : Tidy owns p) {k : PoolKey} {x : H} (hx : p.live? k = some x) (y : H) (s : σ) :
    (p.perform o (.replace k y) s).1 = .handle (.ok x) ∧
      Tidy owns (p.perform o (.replace k y) s).2.1 ∧
      (p.perform o (.replace k y) s).2.1.live? k = some y ∧
      ∀ k', k' ≠ k → (p.perform o (.replace k y) s).2.1.live? k' = p.live? k' := by
  obtain ⟨i, hi, hhandle⟩ := (live?_eq_some h.orderly).mp hx
  rw [handle?, Option.map_eq_some_iff] at hhandle
  obtain ⟨e, he, rfl⟩ := hhandle
  have hopen := h.fresh k i hi
  rw [perform_replace o (h.orderly.slotOf?_eq_some hi) hopen he]
  obtain ⟨hself, hother⟩ := h.live?_store hi y (o.clock s)
  exact ⟨rfl, h.store hopen y _, hself, hother⟩

/-- A slot that is given up and taken out of the table leaves the others as they are. -/
theorem dropped (h : Tidy owns p) {k : PoolKey} {i : Nat} (hi : owns k i) {p' : Pool H}
    (ho : Orderly owns p') (hl : p'.links = (p.unlink k i).links)
    (hs : ∀ j, i ≠ j → p'.slot j = p.slot j) :
    Tidy owns p' ∧ ∀ k' x, p'.live? k' = some x → p.live? k' = some x := by
  have hkept : ∀ k' j, (k', j) ∈ p'.links → (k', j) ∈ p.links ∧ i ≠ j := by
    intro k' j hj
    rw [hl] at hj
    obtain ⟨hj, hne⟩ := List.mem_filter.mp hj
    refine ⟨hj, ?_⟩
    rintro rfl
    obtain rfl := h.orderly.unique k' k i (h.orderly.linked k' i hj) hi
    simp at hne
  refine ⟨⟨ho, fun k' j hj => ?_⟩, fun k' x hx => ?_⟩
  · obtain ⟨hj, hne⟩ := hkept k' j hj
    rw [isRetired, hs j hne]
    exact h.fresh k' j hj
  · obtain ⟨j, hj, hhandle⟩ := (live?_eq_some ho).mp hx
    obtain ⟨hj, hne⟩ := hkept k' j hj
    rw [live?_eq_some h.orderly]
    exact ⟨j, hj, (handle?_of_slot (hs j hne)).symm.trans hhandle⟩

/-- An eviction takes handles away, and puts none in their place. -/
theorem giveUp (h : Tidy owns p) (e : Eviction) (rest : List (PoolKey × Nat))
    (hrest : ∀ x ∈ rest, owns x.1 x.2) (s : σ) :
    Tidy owns (Pool.giveUp o e rest p s).2.1 ∧
      ∀ k x, (Pool.giveUp o e rest p s).2.1.live? k = some x → p.live? k = some x := by
  induction rest generalizing p s with
  | nil => exact ⟨h, fun _ _ hx => hx⟩
  | cons x rest ih =>
    obtain ⟨k, i⟩ := x
    obtain ⟨hown, hrest⟩ := List.forall_mem_cons.mp hrest
    rw [Pool.giveUp]
    split
    · exact ih h hrest s
    · split
      · next x hx =>
        obtain ⟨ho, hslots⟩ := h.orderly.cleared hown
        obtain ⟨htidy, hlive⟩ := h.dropped hown ho rfl hslots
        obtain ⟨htidy, hlater⟩ := ih htidy hrest (o.close x.handle s)
        exact ⟨htidy, fun k' y hy => hlive k' y (hlater k' y hy)⟩
      · next hx =>
        obtain ⟨ho, hslots⟩ := h.orderly.unlinked hown hx
        obtain ⟨htidy, hlive⟩ := h.dropped hown ho rfl hslots
        obtain ⟨htidy, hlater⟩ := ih htidy hrest s
        exact ⟨htidy, fun k' y hy => hlive k' y (hlater k' y hy)⟩

/-- A sweep only takes handles away. -/
theorem sweepAt (h : Tidy owns p) (now : Nat) (s : σ) :
    Tidy owns (p.perform o (.sweepAt now) s).2.1 ∧
      ∀ k x, (p.perform o (.sweepAt now) s).2.1.live? k = some x → p.live? k = some x := by
  rw [perform_sweepAt]
  refine h.giveUp o _ _ (fun x hx => h.orderly.linked x.1 x.2 ?_) s
  exact (List.mem_filter.mp hx).1

end Tidy
end Polyshell.Pool
