/-
  What a call changes.

  1. **An eviction at once** — an eviction goes through the table key by key, but what it does to
     one key does not depend on the others.  So it takes the keys that it picks out of the contents
     all at once (`Contents.giveUp_eq`).

  2. **A call** — a call puts one connection in, or uses one that is there, or takes some out; and
     that is all that becomes of the connections (`Tidy.becomes_perform`).  No call changes the
     timing (`Tidy.settings_perform`).
-/
import Polyshell.Proofs.Pool.Contents

namespace Polyshell.Pool

variable {H σ : Type}

/-! ## An eviction at once -/

namespace Contents

/-- The contents without some keys and their connections. -/
def without (x : Contents H) (gone : PoolKey → Bool) : Contents H :=
  { x with
    keys := x.keys.filter fun k => !gone k
    entry := fun k => if gone k then none else x.entry k }

theorem without_nothing (x : Contents H) : x.without (fun _ => false) = x := by
  have hkeys : x.keys.filter (fun _ => !false) = x.keys := List.filter_eq_self.mpr fun _ _ => rfl
  exact Contents.ext rfl rfl hkeys rfl rfl

theorem without_drop (x : Contents H) (k : PoolKey) (gone : PoolKey → Bool) :
    (x.drop k).without gone = x.without fun k' => k' = k || gone k' := by
  refine Contents.ext rfl rfl ?_ (funext fun k' => ?_) rfl
  · show (x.keys.filter _).filter _ = x.keys.filter _
    rw [List.filter_filter]
    refine List.filter_congr fun k' _ => ?_
    by_cases hk : k' = k <;> simp [hk]
  · show (if gone k' then none else if k' = k then none else x.entry k') =
      if decide (k' = k) || gone k' then none else x.entry k'
    by_cases hk : k' = k <;> simp [hk]

/-- What was done to one key makes no difference to another. -/
theorem evicts_drop (x : Contents H) (e : Eviction) {k k' : PoolKey} (h : k' ≠ k) :
    (x.drop k).evicts e k' = x.evicts e k' := by
  have hentry : (x.drop k).entry k' = x.entry k' := if_neg h
  cases e with
  | of scope => rfl
  | idleAt now =>
    rw [evicts, evicts, hentry]
    rfl

/-- The handle that goes with a key, if an eviction picks it. -/
def goes? (x : Contents H) (e : Eviction) (k : PoolKey) : Option (PoolKey × H) :=
  if x.evicts e k then (x.entry k).map fun y => (k, y.handle) else none

theorem goes?_drop (x : Contents H) (e : Eviction) {k k' : PoolKey} (h : k' ≠ k) :
    (x.drop k).goes? e k' = x.goes? e k' := by
  have hentry : (x.drop k).entry k' = x.entry k' := if_neg h
  rw [goes?, goes?, x.evicts_drop e h, hentry]

/-- An eviction takes the keys that it picks out of the contents, and their handles with them. -/
theorem giveUp_eq (e : Eviction) {ks : List PoolKey} (hks : ks.Nodup) (x : Contents H) :
    x.giveUp e ks =
      (ks.filterMap (x.goes? e), x.without fun k => ks.contains k && x.evicts e k) := by
  induction ks generalizing x with
  | nil => exact Prod.ext rfl x.without_nothing.symm
  | cons k rest ih =>
    obtain ⟨hk, hrest⟩ := List.nodup_cons.mp hks
    have hne : ∀ k' ∈ rest, k' ≠ k := fun k' hk' heq => hk (heq ▸ hk')
    rw [giveUp]
    split
    · next hpicked =>
      -- the keys behind are other ones, so dropping this one changes nothing for them
      have hgone : rest.filterMap ((x.drop k).goes? e) = rest.filterMap (x.goes? e) :=
        List.filterMap_congr fun k' hk' => x.goes?_drop e (hne k' hk')
      have hpicks : (fun k' => decide (k' = k) || (rest.contains k' && (x.drop k).evicts e k')) =
          fun k' => (k :: rest).contains k' && x.evicts e k' := by
        funext k'
        by_cases hk' : k' = k
        · simp [hk', hpicked]
        · simp [hk', x.evicts_drop e hk']
      dsimp only
      rw [ih hrest, hgone, without_drop, hpicks, List.filterMap_cons, goes?, if_pos hpicked]
      cases x.entry k <;> rfl
    · next hkept =>
      have hpicks : (fun k' => rest.contains k' && x.evicts e k') =
          fun k' => (k :: rest).contains k' && x.evicts e k' := by
        funext k'
        by_cases hk' : k' = k
        · simp [hk', hkept]
        · simp [hk']
      rw [ih hrest, hpicks, List.filterMap_cons, goes?, if_neg hkept]

/-- The keys that an eviction picks. -/
def picks (x : Contents H) (e : Eviction) (k : PoolKey) : Bool :=
  (x.keys.filter e.scope.covers).contains k && x.evicts e k

/-- The handles that go in an eviction, with their keys. -/
def gone (x : Contents H) (e : Eviction) : List (PoolKey × H) :=
  (x.keys.filter e.scope.covers).filterMap (x.goes? e)

theorem evict_eq (o : Outside σ H) {x : Contents H} (hkeys : x.keys.Nodup) (e : Eviction)
    (a : Account) (s : σ) : x.evict o e a s =
      (a.result (x.gone e).length, (x.gone e).map fun y => .evicted y.1 y.2, x.without (x.picks e),
        (x.gone e).foldl (fun s y => o.close y.2 s) s) := by
  rw [evict, giveUp_eq e (hkeys.filter _)]
  rfl

end Contents

/-! ## A call -/

/-- The key that a call uses: that of an acquisition, or of a replacement that was made. -/
def usedKey? (c : PoolCall H) (r : PoolResult H) : Option PoolKey :=
  match c, r with
  | .acquire k, _ => some k
  | .replace k _, .handle (.ok _) => some k
  | _, _ => none

/-- What may become of contents in a call that uses a key and ends at a time. -/
inductive Contents.Becomes (x : Contents H) (used : Option PoolKey) (now : Nat) (x' : Contents H) :
    Prop
  /-- The key has a connection now that was used at that time, and the others have what they had. -/
  | used (k : PoolKey) (h : H) (key : used = some k) (live : x.closed = false ∨ x.entry k ≠ none)
      (closed : x'.closed = x.closed) (entry : x'.entry = (x.put k (some ⟨h, now⟩)).entry)
      (settings : x'.settings = x.settings)
  /-- Some keys have lost what they had, and a key that was used had nothing.  If the pool was shut
      down by that they are all keys. -/
  | less (gone : PoolKey → Bool) (entry : x'.entry = (x.without gone).entry)
      (absent : ∀ k, used = some k → x.closed = true ∨ x.entry k = none)
      (closed : x'.closed = true → x.closed = true ∨ ∀ k ∈ x.keys, gone k = true)
      (settings : x'.settings = x.settings)

section Calls

variable (o : Outside σ H)

theorem Contents.Becomes.unchanged {x x' : Contents H} {used : Option PoolKey} {now : Nat}
    (hentry : x'.entry = x.entry) (hclosed : x'.closed = x.closed)
    (hsettings : x'.settings = x.settings)
    (habsent : ∀ k, used = some k → x.closed = true ∨ x.entry k = none) :
    x.Becomes used now x' := by
  refine .less (fun _ => false) ?_ habsent (fun h => Or.inl (hclosed ▸ h)) hsettings
  rw [without_nothing, hentry]

/-- An eviction takes connections out; if it follows on a shutdown it takes all. -/
theorem Contents.Becomes.evicted {x y : Contents H} (hkeys : y.keys.Nodup)
    (hentry : y.entry = x.entry) (hsettings : y.settings = x.settings) {e : Eviction}
    {a : Account} {s : σ} {now : Nat}
    (hclosed : y.closed = true → x.closed = true ∨ ∀ k ∈ x.keys, y.picks e k = true) :
    x.Becomes none now (y.evict o e a s).2.2.1 := by
  rw [evict_eq o hkeys]
  refine .less (y.picks e) ?_ (fun k hk => absurd hk.symm (Option.some_ne_none k)) hclosed
    hsettings
  rw [without, without, hentry]

/-- What becomes of the contents in a call. -/
theorem Contents.becomes_perform {x : Contents H} (hkeys : x.keys.Nodup) (c : PoolCall H) (s : σ) :
    x.Becomes (usedKey? c (x.perform o c s).1) (o.clock (x.perform o c s).2.2.2)
      (x.perform o c s).2.2.1 := by
  have hunused : ∀ {used : Option PoolKey}, used = none →
      ∀ k, used = some k → x.closed = true ∨ x.entry k = none :=
    fun hnone k hk => absurd (hnone ▸ hk).symm (Option.some_ne_none k)
  cases c with
  | acquire k =>
    rw [perform]
    split
    · next hclosed => exact .unchanged rfl rfl rfl fun _ _ => Or.inl hclosed
    · next hopen =>
      have hlive : x.closed = false ∨ x.entry k ≠ none := Or.inl (Bool.not_eq_true _ ▸ hopen)
      rw [acquire]
      cases hentry : x.entry k with
      | some e => exact .used k e.handle rfl hlive rfl rfl rfl
      | none =>
        dsimp only
        split
        · next h _ => exact .used k h rfl hlive rfl rfl rfl
        · exact .unchanged rfl rfl rfl fun k' hk => Or.inr (Option.some.inj hk ▸ hentry)
  | replace k y =>
    rw [perform]
    cases hentry : x.entry k with
    | some e => exact .used k y rfl (Or.inr (hentry ▸ Option.some_ne_none e)) rfl rfl rfl
    | none => exact .unchanged rfl rfl rfl (hunused rfl)
  | select k d => exact .unchanged rfl rfl rfl (hunused rfl)
  | selected k => exact .unchanged rfl rfl rfl (hunused rfl)
  | size => exact .unchanged rfl rfl rfl (hunused rfl)
  | sweepAt now => exact .evicted o hkeys rfl rfl Or.inl
  | remove k => exact .evicted (x := x) (y := x.forget (.key k)) o hkeys rfl rfl Or.inl
  | removeSession id => exact .evicted (x := x) (y := x.forget (.session id)) o hkeys rfl rfl Or.inl
  | shutdown =>
    refine .evicted (x := x) (y := { x with closed := true }.forget .all) o hkeys rfl rfl
      fun _ => Or.inr fun k hk => ?_
    simp [picks, forget, Eviction.scope, Scope.covers, evicts, hk]

/-- What becomes of a pool in a call, as far as its contents go. -/
theorem Tidy.becomes_perform {owns : PoolKey → Nat → Prop} {p : Pool H} (h : Tidy owns p)
    (c : PoolCall H) (s : σ) : p.contents.Becomes (usedKey? c (p.perform o c s).1)
      (o.clock (p.perform o c s).2.2) (p.perform o c s).2.1.contents := by
  have hbecomes := Contents.becomes_perform (x := p.contents) o h.orderly.keys c s
  rwa [(h.perform_contents o c s).2] at hbecomes

/-- No call changes the timing of a pool. -/
theorem Tidy.settings_perform {owns : PoolKey → Nat → Prop} {p : Pool H} (h : Tidy owns p)
    (c : PoolCall H) (s : σ) : (p.perform o c s).2.1.settings = p.settings := by
  rcases h.becomes_perform o c s with
    ⟨-, -, -, -, -, -, hsettings⟩ | ⟨-, -, -, -, hsettings⟩ <;> exact hsettings

end Calls

end Polyshell.Pool
