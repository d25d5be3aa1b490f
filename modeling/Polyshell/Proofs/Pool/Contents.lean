/-
  A pool without its slots.

  Between two calls the slots of a pool do not matter, only what is in them: which keys are in the
  table, which connection each of them has, and what is selected for it.  `Contents` is that, and
  `Contents.perform` says what every call comes to in these words: what it answers, what it notes,
  and what is there afterwards.

  1. **Sections** — how the changes of slots and table appear in the contents (`contents_modify`,
     `contents_link`, `contents_dropped`).

  2. **Evictions** — key by key (`contents_giveUp`).

  3. **Calls** — a call on a tidy pool is the same call on its contents (`Tidy.perform_contents`).
-/
import Polyshell.Proofs.Pool.Acquired
import Polyshell.Proofs.Pool.Journal

namespace Polyshell.Pool

variable {H σ : Type}

/-! ## Contents -/

/-- What is in a pool. -/
@[ext]
structure Contents (H : Type) where
  settings : PoolSettings
  closed : Bool
  /-- The keys in the table. -/
  keys : List PoolKey
  entry : PoolKey → Option (PoolEntry H)
  selection : PoolKey → Option String

/-- The connection of a key, and when it was used last. -/
def entryOf? (p : Pool H) (k : PoolKey) : Option (PoolEntry H) := (p.slotOf? k).bind p.entryAt?

/-- What is in this pool. -/
def contents (p : Pool H) : Contents H :=
  ⟨p.settings, p.closed, p.links.map Prod.fst, p.entryOf?, p.selection?⟩

namespace Contents

/-- What the next connection of a key is opened with. -/
def target (x : Contents H) (k : PoolKey) : PoolKey :=
  match x.selection k with
  | some d => { k with database := some d }
  | none => k

/-- A key that is put into the table, if it is not there. -/
def enlist (x : Contents H) (k : PoolKey) : Contents H :=
  { x with keys := if k ∈ x.keys then x.keys else x.keys ++ [k] }

/-- Another connection for a key. -/
def put (x : Contents H) (k : PoolKey) (e : Option (PoolEntry H)) : Contents H :=
  { x with entry := fun k' => if k' = k then e else x.entry k' }

/-- A key that is taken out of the table with its connection. -/
def drop (x : Contents H) (k : PoolKey) : Contents H :=
  { x.put k none with keys := x.keys.filter fun k' => k' ≠ k }

def select (x : Contents H) (k : PoolKey) (d : String) : Contents H :=
  { x with selection := fun k' => if k' = k then some d else x.selection k' }

def forget (x : Contents H) (s : Scope) : Contents H :=
  { x with selection := fun k => if s.covers k then none else x.selection k }

/-- Whether an eviction that looks at a key gives its connection up. -/
def evicts (x : Contents H) (e : Eviction) (k : PoolKey) : Bool :=
  match e with
  | .of _ => true
  | .idleAt now =>
    match x.entry k with
    | some y => y.isIdle now x.settings.idleTtl
    | none => true

/-- Gives up the keys of a list that an eviction picks; what is closed with them comes first. -/
def giveUp (e : Eviction) : List PoolKey → Contents H → List (PoolKey × H) × Contents H
  | [], x => ([], x)
  | k :: rest, x =>
    if x.evicts e k then
      let later := giveUp e rest (x.drop k)
      (((x.entry k).map fun y => (k, y.handle)).toList ++ later.1, later.2)
    else giveUp e rest x

variable (o : Outside σ H)

/-- An eviction. -/
def evict (x : Contents H) (e : Eviction) (a : Account) (s : σ) :
    PoolResult H × List (Event H Empty) × Contents H × σ :=
  let gone := x.giveUp e (x.keys.filter e.scope.covers)
  (a.result gone.1.length, gone.1.map fun y => .evicted y.1 y.2, gone.2,
    gone.1.foldl (fun s y => o.close y.2 s) s)

/-- An acquisition on a pool that is not shut down. -/
def acquire (x : Contents H) (k : PoolKey) (s : σ) :
    PoolResult H × List (Event H Empty) × Contents H × σ :=
  match x.entry k with
  | some e =>
    (.handle (.ok e.handle), [.acquired k e.handle], x.put k (some ⟨e.handle, o.clock s⟩), s)
  | none =>
    let dialling := dial o x.settings k (x.target k) (x.settings.attempts - 1) 1 s
    (.handle dialling.1,
      .connecting k (x.target k) ::
        dialled o x.settings k (x.target k) (x.settings.attempts - 1) 1 s,
      match dialling.1 with
      | .ok h => (x.enlist k).put k (some ⟨h, o.clock dialling.2⟩)
      | .error _ => x.enlist k,
      dialling.2)

/-- What a call comes to: its answer, what it notes, the contents behind it, and the world. -/
def perform (x : Contents H) (c : PoolCall H) (s : σ) :
    PoolResult H × List (Event H Empty) × Contents H × σ :=
  match c with
  | .acquire k =>
    if x.closed then (.handle (.error (.connection .poolClosed)), [], x, s) else x.acquire o k s
  | .replace k h =>
    match x.entry k with
    | some e =>
      (.handle (.ok e.handle), [.replaced k h e.handle], x.put k (some ⟨h, o.clock s⟩), s)
    | none => (.handle (.error (notPooled k)), [], x, s)
  | .select k d => (.nothing, [], x.select k d, s)
  | .selected k => (.database (x.selection k), [], x, s)
  | .sweepAt now => x.evict o (.idleAt now) .theNumber s
  | .remove k => (x.forget (.key k)).evict o (.of (.key k)) .whetherAny s
  | .removeSession id => (x.forget (.session id)).evict o (.of (.session id)) .theNumber s
  | .shutdown => ({ x with closed := true }.forget .all).evict o (.of .all) .nothing s
  | .size => (.number (x.keys.countP fun k => (x.entry k).isSome), [], x, s)

end Contents

/-! ## Sections -/

section Sections

variable {owns : PoolKey → Nat → Prop} {p : Pool H}

/-- A key in the table has the connection in its slot. -/
theorem Orderly.entryOf?_of_mem (h : Orderly owns p) {k : PoolKey} {i : Nat}
    (hi : (k, i) ∈ p.links) : p.entryOf? k = p.entryAt? i := by
  rw [entryOf?, h.slotOf?_eq_some hi]
  rfl

theorem mem_keys {k : PoolKey} : k ∈ p.contents.keys ↔ ∃ i, (k, i) ∈ p.links := by
  rw [contents, List.mem_map]
  constructor
  · rintro ⟨⟨k', i⟩, hi, rfl⟩
    exact ⟨i, hi⟩
  · rintro ⟨i, hi⟩
    exact ⟨(k, i), hi, rfl⟩

theorem slotOf?_of_not_mem_keys {k : PoolKey} (h : k ∉ p.contents.keys) : p.slotOf? k = none := by
  rw [Option.eq_none_iff_forall_ne_some]
  exact fun i hi => h (mem_keys.mpr ⟨i, mem_of_slotOf? hi⟩)

theorem entryOf?_of_not_mem_keys {k : PoolKey} (h : k ∉ p.contents.keys) : p.entryOf? k = none := by
  rw [entryOf?, slotOf?_of_not_mem_keys h]
  rfl

/-- A change of one slot changes the connection of its key. -/
theorem Orderly.contents_modify (h : Orderly owns p) {k : PoolKey} {i : Nat}
    (hi : (k, i) ∈ p.links) (f : PoolSlot H → PoolSlot H) :
    (p.modify i f).contents = p.contents.put k (f (p.slot i)).entry := by
  have hentry : (p.modify i f).entryOf? = (p.contents.put k (f (p.slot i)).entry).entry := by
    funext k'
    show ((p.modify i f).slotOf? k').bind (p.modify i f).entryAt? =
      if k' = k then (f (p.slot i)).entry else p.entryOf? k'
    have hslot : (p.modify i f).slotOf? k' = p.slotOf? k' := rfl
    rw [hslot]
    split
    · next hk =>
      subst hk
      rw [h.slotOf?_eq_some hi]
      show ((p.modify i f).slot i).entry = _
      rw [slot_modify p i f i (h.made k' i (h.linked k' i hi)), if_pos rfl]
    · next hk =>
      rw [entryOf?]
      cases hj : p.slotOf? k' with
      | none => rfl
      | some j =>
        have hne : i ≠ j := by
          rintro rfl
          exact hk (h.unique k' k i (h.linked k' i (mem_of_slotOf? hj)) (h.linked k i hi))
        show ((p.modify i f).slot j).entry = (p.slot j).entry
        rw [slot_modify_of_ne p f hne]
  exact Contents.ext rfl rfl rfl hentry rfl

/-- A slot that is made is empty. -/
theorem entryOf?_link (p : Pool H) (k : PoolKey) : (p.link k).2.entryOf? = p.entryOf? := by
  funext k'
  rw [entryOf?, entryOf?]
  cases hk' : p.slotOf? k' with
  | some j =>
    rw [slotOf?_link_of_some hk']
    exact entryAt?_link p k j
  | none =>
    -- if there is a slot now it is the new one
    rw [Option.bind_none, Option.bind_eq_none_iff]
    intro j hj
    have hmem := mem_of_slotOf? hj
    rw [entryAt?_link]
    cases hk : p.slotOf? k with
    | some i =>
      rw [link_of_some hk] at hmem
      exact absurd hmem (not_mem_of_slotOf?_eq_none hk' j)
    | none =>
      rw [link_of_none hk] at hmem
      rcases List.mem_append.mp hmem with hmem | hmem
      · exact absurd hmem (not_mem_of_slotOf?_eq_none hk' j)
      · obtain ⟨-, rfl⟩ := Prod.mk.inj (List.mem_singleton.mp hmem)
        exact entryAt?_of_length_le (Nat.le_refl _)

/-- It puts its key into the table, and changes nothing else. -/
theorem contents_link (p : Pool H) (k : PoolKey) : (p.link k).2.contents = p.contents.enlist k := by
  have hkeys : (p.link k).2.links.map Prod.fst = (p.contents.enlist k).keys := by
    show _ = if k ∈ p.contents.keys then p.contents.keys else p.contents.keys ++ [k]
    cases hk : p.slotOf? k with
    | some i =>
      rw [link_of_some hk, if_pos (mem_keys.mpr ⟨i, mem_of_slotOf? hk⟩)]
      rfl
    | none =>
      have hnew : k ∉ p.contents.keys := fun hmem =>
        have ⟨i, hi⟩ := mem_keys.mp hmem
        not_mem_of_slotOf?_eq_none hk i hi
      rw [link_of_none hk, if_neg hnew, List.map_append]
      rfl
  have hclosed : (p.link k).2.closed = p.closed := by
    rw [link]
    split <;> rfl
  have hselection : (p.link k).2.selection? = p.selection? := by
    funext k'
    rw [selection?, selection?, selected_link]
  exact Contents.ext (settings_link p k) hclosed hkeys (entryOf?_link p k) hselection

/-- A slot that is given up and taken out of the table takes its key with it. -/
theorem Orderly.contents_dropped (h : Orderly owns p) {k : PoolKey} {i : Nat}
    (hi : (k, i) ∈ p.links) {p' : Pool H} (ho : Orderly owns p')
    (hl : p'.links = (p.unlink k i).links) (hs : ∀ j, i ≠ j → p'.slot j = p.slot j)
    (hsettings : p'.settings = p.settings) (hclosed : p'.closed = p.closed)
    (hselected : p'.selected = p.selected) : p'.contents = p.contents.drop k := by
  have hkeys : p'.contents.keys = (p.contents.drop k).keys := by
    show p'.links.map Prod.fst = (p.links.map Prod.fst).filter fun k' => k' ≠ k
    rw [hl, Pool.unlink, List.filter_map]
    refine congrArg (List.map Prod.fst) (List.filter_congr fun l hmem => ?_)
    by_cases hk : l.1 = k
    · have hsecond : l.2 = i := h.eq_of_mem (show (k, l.2) ∈ p.links from hk ▸ hmem) hi
      simp [hk, hsecond]
    · simp [hk]
  have hentry : p'.entryOf? = (p.contents.drop k).entry := by
    funext k'
    show p'.entryOf? k' = if k' = k then none else p.entryOf? k'
    split
    · next hk =>
      refine entryOf?_of_not_mem_keys fun hmem => ?_
      rw [hkeys] at hmem
      exact absurd hk (of_decide_eq_true (List.mem_filter.mp hmem).2)
    · next hk =>
      by_cases hmem : k' ∈ p.contents.keys
      · obtain ⟨j, hj⟩ := mem_keys.mp hmem
        have hj' : (k', j) ∈ p'.links := by
          rw [hl]
          exact List.mem_filter.mpr ⟨hj, by simp [hk]⟩
        have hne : i ≠ j := by
          rintro rfl
          exact hk (h.unique k' k i (h.linked k' i hj) (h.linked k i hi))
        rw [h.entryOf?_of_mem hj, ho.entryOf?_of_mem hj', entryAt?, hs j hne, entryAt?]
      · rw [entryOf?_of_not_mem_keys hmem, entryOf?_of_not_mem_keys]
        rw [hkeys]
        exact fun hdropped => hmem (List.mem_filter.mp hdropped).1
  have hselection : p'.selection? = p.selection? := funext fun k' => selection?_congr hselected k'
  exact Contents.ext hsettings hclosed hkeys hentry hselection

end Sections

/-! ## Evictions -/

section Evictions

variable {owns : PoolKey → Nat → Prop} {p : Pool H} (o : Outside σ H)

/-- Whether an eviction picks a slot is seen from what its key has. -/
theorem Orderly.evicts_contents (h : Orderly owns p) {k : PoolKey} {i : Nat}
    (hi : (k, i) ∈ p.links) (e : Eviction) : p.contents.evicts e k = p.evicts e i := by
  cases e with
  | of scope => rfl
  | idleAt now =>
    show (match p.entryOf? k with | some y => _ | none => true) = _
    rw [h.entryOf?_of_mem hi]
    rfl

/-- A slot that is given up keeps its connection until that is closed. -/
theorem Orderly.entryAt?_retire (h : Orderly owns p) {k : PoolKey} {i : Nat}
    (hi : (k, i) ∈ p.links) : (p.retire i).entryAt? i = p.entryOf? k := by
  rw [h.entryOf?_of_mem hi, entryAt?, Pool.retire,
    slot_modify p i _ i (h.made k i (h.linked k i hi)), if_pos rfl]
  rfl

/-- An eviction of slots is one of their keys. -/
theorem Tidy.contents_giveUp (h : Tidy owns p) (e : Eviction) {rest : List (PoolKey × Nat)}
    (hrest : ∀ l ∈ rest, l ∈ p.links) (hkeys : (rest.map Prod.fst).Nodup) (s : σ) :
    Tidy owns (Pool.giveUp o e rest p s).2.1 ∧
      (Pool.giveUp o e rest p s).2.1.contents = (p.contents.giveUp e (rest.map Prod.fst)).2 ∧
      givenUp e rest p =
        (p.contents.giveUp e (rest.map Prod.fst)).1.map (fun y => .evicted y.1 y.2) ∧
      (Pool.giveUp o e rest p s).2.2 =
        (p.contents.giveUp e (rest.map Prod.fst)).1.foldl (fun s y => o.close y.2 s) s := by
  induction rest generalizing p s with
  | nil => exact ⟨h, rfl, rfl, rfl⟩
  | cons l rest ih =>
    obtain ⟨k, i⟩ := l
    obtain ⟨hi, hrest⟩ := List.forall_mem_cons.mp hrest
    rw [List.map_cons, List.nodup_cons] at hkeys
    obtain ⟨hnew, hkeys⟩ := hkeys
    have hown := h.orderly.linked k i hi
    have hretired := h.orderly.entryAt?_retire hi
    -- the slots behind are still in the table when this one has left it
    have hstay : ∀ l ∈ rest, l ∈ (p.unlink k i).links := by
      intro l hl
      refine List.mem_filter.mpr ⟨hrest l hl, ?_⟩
      have hne : l.1 ≠ k := fun hk => hnew (List.mem_map.mpr ⟨l, hl, hk⟩)
      simp [hne]
    rw [Pool.giveUp, givenUp, List.map_cons, Contents.giveUp, h.orderly.evicts_contents hi,
      h.fresh k i hi, Bool.false_or]
    cases hevicts : p.evicts e i with
    | false => exact ih h hrest hkeys s
    | true =>
      rw [Bool.not_true, if_neg Bool.false_ne_true, if_neg Bool.false_ne_true, if_pos rfl, hretired]
      cases hk : p.entryOf? k with
      | some y =>
        obtain ⟨ho, hslots⟩ := h.orderly.cleared hown
        have hdrop := h.orderly.contents_dropped hi ho rfl hslots rfl rfl rfl
        obtain ⟨htidy, -⟩ := h.dropped hown ho rfl hslots
        obtain ⟨htidy, hcontents, hnoted, hworld⟩ := ih htidy hstay hkeys (o.close y.handle s)
        rw [hdrop] at hcontents hnoted hworld
        have hy : p.contents.entry k = some y := hk
        rw [hy]
        exact ⟨htidy, hcontents, congrArg (Event.evicted k y.handle :: ·) hnoted, hworld⟩
      | none =>
        obtain ⟨ho, hslots⟩ := h.orderly.unlinked hown (hretired.trans hk)
        have hdrop := h.orderly.contents_dropped hi ho rfl hslots rfl rfl rfl
        obtain ⟨htidy, -⟩ := h.dropped hown ho rfl hslots
        obtain ⟨htidy, hcontents, hnoted, hworld⟩ := ih htidy hstay hkeys s
        rw [hdrop] at hcontents hnoted hworld
        have hy : p.contents.entry k = none := hk
        rw [hy]
        exact ⟨htidy, hcontents, hnoted, hworld⟩

/-- The keys of the slots that an operation is about. -/
theorem map_linksIn (p : Pool H) (scope : Scope) :
    (p.linksIn scope).map Prod.fst = p.contents.keys.filter scope.covers := by
  rw [linksIn, contents, List.filter_map]
  rfl

/-- An eviction on a tidy pool is that on its contents. -/
theorem Tidy.contents_evict (h : Tidy owns p) (e : Eviction) (a : Account) (s : σ) :
    Tidy owns (Pool.giveUp o e (p.linksIn e.scope) p s).2.1 ∧
      p.contents.evict o e a s = (a.result (Pool.giveUp o e (p.linksIn e.scope) p s).1,
        givenUp e (p.linksIn e.scope) p,
        (Pool.giveUp o e (p.linksIn e.scope) p s).2.1.contents,
        (Pool.giveUp o e (p.linksIn e.scope) p s).2.2) := by
  have hlinks : ∀ l ∈ p.linksIn e.scope, l ∈ p.links := fun l hl => (List.mem_filter.mp hl).1
  have hkeys : ((p.linksIn e.scope).map Prod.fst).Nodup := by
    rw [map_linksIn]
    exact h.orderly.keys.filter _
  obtain ⟨htidy, hcontents, hnoted, hworld⟩ := h.contents_giveUp o e hlinks hkeys s
  refine ⟨htidy, ?_⟩
  have hnumber := givenUp_length o e (p.linksIn e.scope) p s
  rw [hnoted, List.length_map, map_linksIn] at hnumber
  rw [Contents.evict, hcontents, hnoted, hworld, map_linksIn, ← hnumber]

end Evictions

/-! ## Calls -/

section Calls

variable {owns : PoolKey → Nat → Prop} {p : Pool H} (o : Outside σ H)

/-- A call does to the contents of a pool what it does to the pool. -/
def Mirrors (p : Pool H) (c : PoolCall H) (s : σ) : Prop :=
  (∃ owns, Tidy owns (p.perform o c s).2.1) ∧
    p.contents.perform o c s = ((p.perform o c s).1, happens o p c s,
      (p.perform o c s).2.1.contents, (p.perform o c s).2.2)

theorem Contents.enlist_of_mem {x : Contents H} {k : PoolKey} (h : k ∈ x.keys) :
    x.enlist k = x := by
  rw [Contents.enlist, if_pos h]

/-- The contents have what is in the slot of a key, also when it was just made. -/
theorem Tidy.entryAt?_link (h : Tidy owns p) (k : PoolKey) :
    ∃ owns', Tidy owns' (p.link k).2 ∧ (k, (p.link k).1) ∈ (p.link k).2.links ∧
      (p.link k).2.entryAt? (p.link k).1 = p.entryOf? k := by
  obtain ⟨owns', hlinked, hmem, -⟩ := h.link k
  refine ⟨owns', hlinked, hmem, ?_⟩
  rw [← hlinked.orderly.entryOf?_of_mem hmem]
  exact congrFun (congrArg Contents.entry (contents_link p k)) k

theorem Tidy.mirrors_acquire (h : Tidy owns p) (k : PoolKey) (s : σ) :
    Mirrors o p (.acquire k) s := by
  obtain ⟨owns', hlinked, hmem, hslot⟩ := h.entryAt?_link k
  have hopen := hlinked.fresh k _ hmem
  have hcontents := contents_link p k
  rw [Mirrors, perform_acquire o hopen, happens_acquire o hopen, hslot, Contents.perform]
  show _ ∧ (if p.closed then _ else _) = _
  split
  · exact ⟨⟨owns, h⟩, rfl⟩
  · rw [Contents.acquire]
    show _ ∧ (match p.entryOf? k with | some e => _ | none => _) = _
    cases hentry : p.entryOf? k with
    | some e =>
      have hlisted : k ∈ p.contents.keys := by
        refine Decidable.of_not_not fun hnot => ?_
        rw [entryOf?_of_not_mem_keys hnot] at hentry
        cases hentry
      refine ⟨⟨owns', hlinked.touch _ _⟩, ?_⟩
      rw [Pool.touch, hlinked.orderly.contents_modify hmem, hcontents,
        Contents.enlist_of_mem hlisted]
      rw [hentry, entryAt?] at hslot
      rw [hslot]
      rfl
    | none =>
      have htarget : p.contents.target k = p.target k := rfl
      have hsettings : p.contents.settings = p.settings := rfl
      dsimp only
      rw [htarget, hsettings, stored]
      cases (dial o p.settings k (p.target k) (p.settings.attempts - 1) 1 s).1 with
      | error e =>
        refine ⟨⟨owns', hlinked⟩, ?_⟩
        dsimp only
        rw [hcontents]
      | ok x =>
        refine ⟨⟨owns', hlinked.store hopen x _⟩, ?_⟩
        dsimp only
        rw [Pool.store, hlinked.orderly.contents_modify hmem, hcontents]

theorem Tidy.mirrors_replace (h : Tidy owns p) (k : PoolKey) (x : H) (s : σ) :
    Mirrors o p (.replace k x) s := by
  have hfind : ∀ fuel, drive o (fuel + 2) p (.start (.replace k x)) s = drive o fuel
      (p.advance (o.clock s) .timedOut (.find k x)).1 (p.advance (o.clock s) .timedOut (.find k x)).2
      s := fun _ => rfl
  have hfound : ∀ fuel, journal o (fuel + 2) p (.start (.replace k x)) s =
      aboutKeys p (.find k x) (p.advance (o.clock s) .timedOut (.find k x)).2 ++ journal o fuel
        (p.advance (o.clock s) .timedOut (.find k x)).1
        (p.advance (o.clock s) .timedOut (.find k x)).2 s := fun _ => rfl
  rw [Mirrors, perform, happens, sections_eq, hfind, hfound, advance, Contents.perform]
  show _ ∧ (match p.entryOf? k with | some e => _ | none => _) = _
  cases hslot : p.slotOf? k with
  | none =>
    rw [show p.entryOf? k = none by rw [entryOf?, hslot]; rfl]
    exact ⟨⟨owns, h⟩, rfl⟩
  | some i =>
    have hi := mem_of_slotOf? hslot
    have hswap : ∀ fuel, drive o (fuel + 1) p (.swap k i x) s = drive o fuel
        (p.advance (o.clock s) .timedOut (.swap k i x)).1
        (p.advance (o.clock s) .timedOut (.swap k i x)).2 s := fun _ => rfl
    have hswapped : ∀ fuel, journal o (fuel + 1) p (.swap k i x) s =
        aboutKeys p (.swap k i x) (p.advance (o.clock s) .timedOut (.swap k i x)).2 ++ journal o fuel
          (p.advance (o.clock s) .timedOut (.swap k i x)).1
          (p.advance (o.clock s) .timedOut (.swap k i x)).2 s := fun _ => rfl
    have hquiet : aboutKeys p (.find k x) (.swap k i x) = [] := rfl
    have hopen := h.fresh k i hi
    dsimp only
    rw [hquiet, hswap, hswapped, advance, hopen, if_neg Bool.false_ne_true,
      h.orderly.entryOf?_of_mem hi]
    cases p.entryAt? i with
    | none => exact ⟨⟨owns, h⟩, rfl⟩
    | some e =>
      refine ⟨⟨owns, h.store hopen x _⟩, ?_⟩
      have hcontents := h.orderly.contents_modify hi
        fun slot => { slot with entry := some ⟨x, o.clock s⟩ }
      exact congrArg (fun contents => ((.handle (.ok e.handle) : PoolResult H),
        [Event.replaced k x e.handle], contents, s)) hcontents.symm

theorem Tidy.mirrors_select (h : Tidy owns p) (k : PoolKey) (d : String) (s : σ) :
    Mirrors o p (.select k d) s := by
  have hselection : (p.select k d).selection? = (p.contents.select k d).selection := by
    funext k'
    show _ = if k' = k then some d else p.selection? k'
    split
    · next hk => rw [hk, selection?_select]
    · next hk => exact selection?_select_of_ne p d hk
  have hcontents : (p.select k d).contents = p.contents.select k d :=
    Contents.ext rfl rfl rfl rfl hselection
  rw [Mirrors, perform_select, happens, sections_eq, hcontents]
  exact ⟨⟨owns, h.select k d⟩, rfl⟩

theorem Tidy.mirrors_selected (h : Tidy owns p) (k : PoolKey) (s : σ) :
    Mirrors o p (.selected k) s := by
  rw [Mirrors, perform, happens, sections_eq]
  exact ⟨⟨owns, h⟩, rfl⟩

/-- The live connections are counted slot by slot. -/
theorem drive_count (rest : List Nat) (live fuel : Nat) (hf : rest.length + 1 ≤ fuel) (p : Pool H)
    (s : σ) :
    drive o fuel p (countFrom rest live) s = (.number (live + rest.countP p.isLive), p, s) ∧
      journal o fuel p (countFrom rest live) s = [] := by
  induction rest generalizing live fuel with
  | nil =>
    obtain ⟨fuel, rfl⟩ : ∃ fuel', fuel = fuel' + 1 := ⟨fuel - 1, by omega⟩
    exact ⟨rfl, rfl⟩
  | cons i rest ih =>
    rw [List.length_cons] at hf
    obtain ⟨fuel, rfl⟩ : ∃ fuel', fuel = fuel' + 1 := ⟨fuel - 1, by omega⟩
    have hquiet : aboutKeys p (.count i rest live)
        (countFrom rest (if p.isLive i then live + 1 else live)) = [] := by cases rest <;> rfl
    have hcount : drive o (fuel + 1) p (countFrom (i :: rest) live) s = drive o fuel p
        (countFrom rest (if p.isLive i then live + 1 else live)) s := rfl
    have hcounted : journal o (fuel + 1) p (countFrom (i :: rest) live) s =
        aboutKeys p (.count i rest live) (countFrom rest (if p.isLive i then live + 1 else live)) ++
        journal o fuel p (countFrom rest (if p.isLive i then live + 1 else live)) s := rfl
    obtain ⟨hdrive, hjournal⟩ := ih (if p.isLive i then live + 1 else live) fuel (by omega)
    rw [hcount, hcounted, hquiet, hdrive, hjournal, List.countP_cons]
    refine ⟨?_, rfl⟩
    split <;> simp only [Nat.add_assoc, Nat.add_comm 1, Nat.add_zero]

theorem Tidy.mirrors_size (h : Tidy owns p) (s : σ) : Mirrors o p .size s := by
  have hlength : (p.links.map Prod.snd).length + 1 ≤
      2 * p.settings.attempts + 3 * p.links.length + 6 := by
    rw [List.length_map]
    omega
  obtain ⟨hdrive, hjournal⟩ := drive_count o (p.links.map Prod.snd) 0 _ hlength p s
  have hstart : ∀ fuel, drive o (fuel + 2) p (.start .size) s =
      drive o fuel p (countFrom (p.links.map Prod.snd) 0) s := fun _ => rfl
  have hquiet : aboutKeys p .census (countFrom (p.links.map Prod.snd) 0) = [] := by
    cases p.links.map Prod.snd <;> rfl
  have hstarted : ∀ fuel, journal o (fuel + 2) p (.start .size) s =
      aboutKeys p .census (countFrom (p.links.map Prod.snd) 0) ++
        journal o fuel p (countFrom (p.links.map Prod.snd) 0) s := fun _ => rfl
  have hcount : (p.links.map Prod.snd).countP p.isLive =
      p.contents.keys.countP fun k => (p.contents.entry k).isSome := by
    rw [contents, List.countP_map, List.countP_map]
    refine List.countP_congr fun l hl => ?_
    show p.isLive l.2 = true ↔ (p.entryOf? l.1).isSome = true
    rw [h.orderly.entryOf?_of_mem hl, isLive, h.fresh l.1 l.2 hl]
    rfl
  rw [Mirrors, perform, happens, sections_eq, hstart, hstarted, hquiet, hdrive, hjournal, hcount,
    Nat.zero_add]
  exact ⟨⟨owns, h⟩, rfl⟩

theorem Tidy.mirrors_sweepAt (h : Tidy owns p) (now : Nat) (s : σ) :
    Mirrors o p (.sweepAt now) s := by
  obtain ⟨htidy, hevict⟩ := h.contents_evict o (.idleAt now) .theNumber s
  have hhappens : happens o p (.sweepAt now) s = givenUp (.idleAt now) (p.linksIn .all) p := by
    have hlength : (p.linksIn .all).length ≤ p.links.length := List.length_filter_le _ _
    have hstart : ∀ fuel, journal o (fuel + 2) p (.start (.sweepAt now)) s =
        aboutKeys p (.survey (.idleAt now) .theNumber)
          (Round.mk (.idleAt now) .theNumber (p.linksIn .all) 0).next ++
        journal o fuel p (Round.mk (.idleAt now) .theNumber (p.linksIn .all) 0).next s :=
      fun _ => rfl
    rw [happens, sections_eq, hstart, aboutKeys_next, journal_round o _ _ _ _ _ (by omega)]
    rfl
  rw [Mirrors, perform_sweepAt, hhappens]
  exact ⟨⟨owns, htidy⟩, hevict⟩

theorem contents_forget (p : Pool H) (scope : Scope) :
    (p.forget scope).contents = p.contents.forget scope := by
  have hselection : (p.forget scope).selection? = (p.contents.forget scope).selection :=
    funext fun k => selection?_forget p scope k
  exact Contents.ext rfl rfl rfl rfl hselection

/-- A call that gives keys up forgets their databases, and then evicts them. -/
theorem Tidy.mirrors_forget {c : PoolCall H} {q : Pool H} {scope : Scope} {a : Account}
    (hbegin : p.begin c = (q, .forget scope a)) (hq : Tidy owns q) (hlinks : q.links = p.links)
    (s : σ)
    (hc : p.contents.perform o c s = (q.contents.forget scope).evict o (.of scope) a s) :
    Mirrors o p c s := by
  have hforgotten : Tidy owns (q.forget scope) :=
    ⟨hq.orderly.congr rfl (List.Perm.refl _), hq.fresh⟩
  obtain ⟨htidy, hevict⟩ := hforgotten.contents_evict o (.of scope) a s
  have hstart : ∀ fuel, drive o (fuel + 1) p (.start c) s =
      drive o fuel (p.begin c).1 (p.begin c).2 s := fun _ => rfl
  have hstarted : ∀ fuel, journal o (fuel + 1) p (.start c) s =
      aboutKeys p (.start c) (p.begin c).2 ++ journal o fuel (p.begin c).1 (p.begin c).2 s :=
    fun _ => rfl
  have hquiet : aboutKeys p (.start c) (.forget scope a) = [] := rfl
  obtain ⟨hdrive, hjournal⟩ := drive_forget o scope a
    (2 * p.settings.attempts + 3 * p.links.length + 7) q (by rw [hlinks]; omega) s
  rw [Mirrors, perform, happens, sections_eq, hstart, hstarted, hbegin, hquiet, hdrive, hjournal,
    hc, ← contents_forget]
  exact ⟨⟨owns, htidy⟩, hevict⟩

/-- What a pool is to its callers is what is in it. -/
theorem Tidy.perform_contents (h : Tidy owns p) (c : PoolCall H) (s : σ) : Mirrors o p c s := by
  cases c with
  | acquire k => exact h.mirrors_acquire o k s
  | replace k x => exact h.mirrors_replace o k x s
  | select k d => exact h.mirrors_select o k d s
  | selected k => exact h.mirrors_selected o k s
  | sweepAt now => exact h.mirrors_sweepAt o now s
  | remove k => exact Tidy.mirrors_forget o rfl h rfl s rfl
  | removeSession id => exact Tidy.mirrors_forget o rfl h rfl s rfl
  | shutdown =>
    have hshut : Tidy owns p.shut := ⟨h.orderly.congr rfl (List.Perm.refl _), h.fresh⟩
    have hbegin : p.begin .shutdown = (p.shut, .forget .all .nothing) := rfl
    exact Tidy.mirrors_forget o hbegin hshut rfl s rfl
  | size => exact h.mirrors_size o s

end Calls

end Polyshell.Pool
