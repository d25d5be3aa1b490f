/-
  What the history of a pool says about one key.

  1. **A cell for each key** — read event by event, the history of a key is that of a cell for one
     handle: `opened` fills it, `replaced` changes it, `evicted` empties it (`current`).

  2. **The law** — `Lawful history`: only an empty cell is filled, and whoever acquires, replaces or
     evicts gets what is in the cell at that moment.  This is a property of the history alone; that
     tasks which come between one another keep to it is shown elsewhere.

  3. **What follows** — connections are opened at most once more than they are evicted
     (`Lawful.opens_le`), and while a key is neither evicted nor replaced all its acquisitions get
     the same handle (`Lawful.acquired_eq`).
-/
import Polyshell.Pool.Interleaving
import Mathlib.Data.Option.Basic

namespace Polyshell.Pool

variable {H Q : Type}

/-- What happened, by which task, the latest first. -/
abbrev History (H Q : Type) := List (Nat × Event H Q)

/-- The slot `i` was made for the key `k`. -/
def Made (history : History H Q) (k : PoolKey) (i : Nat) : Prop :=
  ∃ t, (t, Event.made k i) ∈ history

/-! ## The cell of a key -/

/-- What becomes of the cell of a key. -/
def Event.change (k : PoolKey) : Event H Q → Option H → Option H
  | .opened k' _ h, cell => if k' = k then some h else cell
  | .replaced k' h _, cell => if k' = k then some h else cell
  | .evicted k' _, cell => if k' = k then none else cell
  | _, cell => cell

/-- What is in the cell of a key. -/
def current (k : PoolKey) : History H Q → Option H
  | [] => none
  | (_, e) :: earlier => e.change k (current k earlier)

/-- What an event presumes of the cells. -/
def Event.Presumes (cell : PoolKey → Option H) : Event H Q → Prop
  | .opened k _ _ => cell k = none
  | .acquired k h => cell k = some h
  | .replaced k _ previous => cell k = some previous
  | .evicted k h => cell k = some h
  | _ => True

/-- Every event found what it presumes. -/
def Lawful : History H Q → Prop
  | [] => True
  | (_, e) :: earlier => e.Presumes (current · earlier) ∧ Lawful earlier

theorem Lawful.of_append {later earlier : History H Q} (h : Lawful (later ++ earlier)) :
    Lawful earlier := by
  induction later with
  | nil => exact h
  | cons x later ih => exact ih h.2

/-! ## Events that concern no cell -/

/-- An event that neither changes nor presumes anything, and makes no slot. -/
def Event.isQuiet : Event H Q → Bool
  | .called _ | .returned _ | .connecting _ _ | .closing _ | .sent _ _ => true
  | _ => false

section Quiet

variable {e : Event H Q} (he : e.isQuiet = true)
include he

theorem change_of_isQuiet (k : PoolKey) (cell : Option H) : e.change k cell = cell := by
  cases e <;> first | rfl | cases he

theorem presumes_of_isQuiet (cell : PoolKey → Option H) : e.Presumes cell := by
  cases e <;> first | exact trivial | cases he

theorem ne_made_of_isQuiet (k : PoolKey) (i : Nat) : e ≠ .made k i := by
  rintro rfl
  cases he

end Quiet

/-! ## Noting events -/

/-- The history with what a task did. -/
def noted (t : Nat) (es : List (Event H Q)) (history : History H Q) : History H Q :=
  es.map (fun e => (t, e)) ++ history

theorem mem_noted {t t' : Nat} {e : Event H Q} {es : List (Event H Q)} {history : History H Q} :
    (t', e) ∈ noted t es history ↔ t' = t ∧ e ∈ es ∨ (t', e) ∈ history := by
  rw [noted, List.mem_append, List.mem_map]
  refine or_congr_left ⟨?_, ?_⟩
  · rintro ⟨e', he, heq⟩
    obtain ⟨rfl, rfl⟩ := Prod.mk.inj heq
    exact ⟨rfl, he⟩
  · rintro ⟨rfl, he⟩
    exact ⟨e, he, rfl⟩

theorem made_noted {t : Nat} {es : List (Event H Q)} {history : History H Q} {k : PoolKey}
    {i : Nat} : Made (noted t es history) k i ↔ .made k i ∈ es ∨ Made history k i := by
  constructor
  · rintro ⟨t', hmem⟩
    rcases List.mem_append.mp hmem with hmem | hmem
    · obtain ⟨e, he, heq⟩ := List.mem_map.mp hmem
      rw [← (Prod.mk.inj heq).2]
      exact Or.inl he
    · exact Or.inr ⟨t', hmem⟩
  · rintro (he | ⟨t', hmem⟩)
    · exact ⟨t, List.mem_append_left _ (List.mem_map.mpr ⟨_, he, rfl⟩)⟩
    · exact ⟨t', List.mem_append_right _ hmem⟩

/-- Events that make no slot leave every slot its owner. -/
theorem made_noted_of_not_mem {t : Nat} {es : List (Event H Q)} (hes : ∀ k i, .made k i ∉ es)
    (history : History H Q) : Made (noted t es history) = Made history := by
  funext k i
  exact propext (made_noted.trans (or_iff_right (hes k i)))

theorem current_noted_quiet (t : Nat) {es : List (Event H Q)} (hes : ∀ e ∈ es, e.isQuiet = true)
    {history : History H Q} (k : PoolKey) : current k (noted t es history) = current k history := by
  induction es with
  | nil => rfl
  | cons e es ih =>
    obtain ⟨he, hrest⟩ := List.forall_mem_cons.mp hes
    exact (change_of_isQuiet he k _).trans (ih hrest)

theorem Lawful.noted_quiet {history : History H Q} (h : Lawful history) (t : Nat)
    {es : List (Event H Q)} (hes : ∀ e ∈ es, e.isQuiet = true) : Lawful (noted t es history) := by
  induction es with
  | nil => exact h
  | cons e es ih =>
    obtain ⟨he, hrest⟩ := List.forall_mem_cons.mp hes
    exact ⟨presumes_of_isQuiet he _, ih hrest⟩

/-! ## Counting -/

/-- Whether a connection of the key was opened. -/
def Event.opens (k : PoolKey) : Event H Q → Bool
  | .opened k' _ _ => k' = k
  | _ => false

/-- Whether a connection of the key was evicted. -/
def Event.evicts (k : PoolKey) : Event H Q → Bool
  | .evicted k' _ => k' = k
  | _ => false

/-- Whether the handle of the key was replaced. -/
def Event.replaces (k : PoolKey) : Event H Q → Bool
  | .replaced k' _ _ => k' = k
  | _ => false

/-- How many connections of a key were opened. -/
def opens (k : PoolKey) (history : History H Q) : Nat := history.countP fun x => x.2.opens k

/-- How many connections of a key were evicted. -/
def evictions (k : PoolKey) (history : History H Q) : Nat := history.countP fun x => x.2.evicts k

/-- A connection that is opened goes into the cell, and one that is evicted comes out of it. -/
theorem Event.balance {e : Event H Q} {cell : PoolKey → Option H} (h : e.Presumes cell)
    (k : PoolKey) : (e.opens k).toNat + (cell k).toList.length =
      (e.evicts k).toNat + (e.change k (cell k)).toList.length := by
  cases e with
  | opened k' target x =>
    by_cases hk : k' = k
    · have hempty : cell k = none := hk ▸ h
      simp [Event.opens, Event.evicts, Event.change, hk, hempty]
    · simp [Event.opens, Event.evicts, Event.change, hk]
  | evicted k' x =>
    by_cases hk : k' = k
    · have hfull : cell k = some x := hk ▸ h
      simp [Event.opens, Event.evicts, Event.change, hk, hfull]
    · simp [Event.opens, Event.evicts, Event.change, hk]
  | replaced k' x previous =>
    by_cases hk : k' = k
    · have hfull : cell k = some previous := hk ▸ h
      simp [Event.opens, Event.evicts, Event.change, hk, hfull]
    · simp [Event.opens, Event.evicts, Event.change, hk]
  | _ => rfl

/-- Every connection that was opened was evicted, up to the one in the cell. -/
theorem Lawful.opens_eq {history : History H Q} (h : Lawful history) (k : PoolKey) :
    opens k history = evictions k history + (current k history).toList.length := by
  have hif : ∀ b : Bool, (if b then 1 else 0) = b.toNat := by decide
  induction history with
  | nil => rfl
  | cons x earlier ih =>
    obtain ⟨hpresumes, hearlier⟩ := h
    have hcount := ih hearlier
    have hbalance := Event.balance hpresumes k
    rw [opens, evictions] at hcount ⊢
    rw [List.countP_cons, List.countP_cons, hif, hif, current]
    omega

theorem Lawful.opens_le {history : History H Q} (h : Lawful history) (k : PoolKey) :
    opens k history ≤ evictions k history + 1 := by
  have hcell : (current k history).toList.length ≤ 1 := Option.length_toList_le
  have hcount := h.opens_eq k
  omega

/-! ## Between two evictions -/

/-- While a key is neither evicted nor replaced, what an acquisition got stays in the cell. -/
theorem Lawful.current_of_acquired {k : PoolKey} {h : H} {segment earlier : History H Q}
    (hl : Lawful (segment ++ earlier))
    (hs : ∀ x ∈ segment, x.2.evicts k = false ∧ x.2.replaces k = false) {t : Nat}
    (hmem : (t, Event.acquired k h) ∈ segment) : current k (segment ++ earlier) = some h := by
  induction segment with
  | nil => exact absurd hmem List.not_mem_nil
  | cons x segment ih =>
    obtain ⟨hpresumes, hrest⟩ := hl
    obtain ⟨hx, htail⟩ := List.forall_mem_cons.mp hs
    rcases List.mem_cons.mp hmem with rfl | hmem
    · exact hpresumes
    · have hcell := ih hrest htail hmem
      obtain ⟨t', e⟩ := x
      show e.change k (current k (segment ++ earlier)) = some h
      rw [hcell]
      cases e with
      | opened k' target y =>
        -- the cell is not empty, so nothing was opened for this key
        have hk : k' ≠ k := by
          rintro rfl
          have hempty : current k' (segment ++ earlier) = none := hpresumes
          rw [hempty] at hcell
          cases hcell
        exact if_neg hk
      | evicted k' y => exact if_neg (of_decide_eq_false hx.1)
      | replaced k' y z => exact if_neg (of_decide_eq_false hx.2)
      | _ => rfl

/-- All acquisitions of a key get the same handle while it is neither evicted nor replaced. -/
theorem Lawful.acquired_eq {k : PoolKey} {history later segment earlier : History H Q}
    (hl : Lawful history) (he : history = later ++ (segment ++ earlier))
    (hs : ∀ x ∈ segment, x.2.evicts k = false ∧ x.2.replaces k = false) {t t' : Nat} {h h' : H}
    (hmem : (t, Event.acquired k h) ∈ segment) (hmem' : (t', Event.acquired k h') ∈ segment) :
    h = h' := by
  subst he
  have hcell := hl.of_append.current_of_acquired hs hmem
  have hcell' := hl.of_append.current_of_acquired hs hmem'
  exact Option.some.inj (hcell.symm.trans hcell')

end Polyshell.Pool
