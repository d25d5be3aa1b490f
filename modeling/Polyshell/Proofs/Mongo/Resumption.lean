/-
  A session stays in its database, whatever becomes of its connection.

  The database of a session is kept twice: the pool remembers which one was selected last, and the
  handle that is live has one of its own.  `use` writes both, a sweep takes the handle away, and the
  next command opens another one with what the pool remembers.

  1. **The record** — `chronicle` lists the turns of a session with what came of each.  `lastUse` reads
     off it which database was used last.

  2. **The invariant** — `Steady k last p`: the pool remembers `last` for the key, and the live handle is
     in the database that a connection opened now would start in.  Acquisitions, switches, sweeps and
     whole commands keep it (`Steady.turn`).

  3. **All runs** — every request for the session's own database goes to the one that was used last
     (`requests_follow_use`).
-/
import Polyshell.Network
import Polyshell.Proofs.Mongo.Switching
import Polyshell.Proofs.Pool.Alone

namespace Polyshell.Mongo

open Polyshell.Text

variable {σ : Type}

/-! ## The record -/

/-- The requests among questions. -/
def requestsIn (qs : List (Exchange Connection Request)) : List (Connection × Request) :=
  qs.filterMap fun
    | .server c q => some (c, q)
    | .pool _ => none

/-- A turn, and what came of it. -/
structure Entry where
  turn : Turn
  outcome : Option (Except ShellError Outcome)
  /-- The requests that were sent, each with the connection that it went over. -/
  sent : List (Connection × Request)
  /-- The pool behind it. -/
  pool : Pool Connection

/-- Turns one after another, with nothing in between. -/
def chronicle (party : Session.Party σ Connection Request Answer) :
    List Turn → Pool Connection → σ → List Entry
  | [], _, _ => []
  | t :: ts, p, s =>
    let held := Session.run party t.session p s
    ⟨t, held.1, requestsIn (t.session.asked party.answer (p, s)), held.2.1⟩ ::
      chronicle party ts held.2.1 held.2.2

/-- The name in a command of the form `use <name>`. -/
def usedName? (text : String) : Option String :=
  (Command.afterKeyword? "use" (normalized text.toList)).map String.ofList

/-- The name that a command used, if it was a `use <name>` that succeeded. -/
def usedBy (text : String) : Except ShellError Outcome → Option String
  | .ok _ => usedName? text
  | .error _ => none

/-- The name that was used in a turn. -/
def Entry.use? (e : Entry) : Option String :=
  match e.turn with
  | .command _ _ text => e.outcome.bind (usedBy text)
  | .call _ => none

/-- The name that was used last, `before` the entries or in them. -/
def lastUse (before : Option String) : List Entry → Option String
  | [] => before
  | e :: es => lastUse (e.use?.or before) es

/-- A turn of the session with the key `k`: a command that does not call `use`, an acquisition, or a
    sweep. -/
def Turn.On (k : PoolKey) : Turn → Prop
  | .command ambient k' text => k' = k ∧ callsUse ambient text = false
  | .call (.acquire k') => k' = k
  | .call (.sweepAt _) => True
  | .call _ => False

/-! ## Names -/

/-- A command that can be read switches to the name in it. -/
theorem target?_eq_usedName? {ambient : Ambient} {text : String} {c : Command}
    (hparse : Command.parse ambient text = .ok c) (hcall : callsUse ambient text = false) :
    target? ambient text = usedName? text := by
  cases hafter : Command.afterKeyword? "use" (normalized text.toList) with
  | some rest =>
    have hread := hparse
    rw [Command.parse, Command.ofNormalized, hafter] at hread
    split at hread
    · cases hread
    · obtain ⟨-, rfl⟩ := ofUse_eq_ok hread
      rw [target?, hparse, usedName?, hafter]
      rfl
  | none =>
    rw [usedName?, hafter, Option.map_none, Option.eq_none_iff_forall_ne_some]
    intro d hd
    have hform := (use_of_target? hcall hd).form
    have hlist := congrArg String.toList hform
    rw [normalize, String.toList_ofList, String.toList_append] at hlist
    rw [hlist] at hafter
    cases hafter

/-- A connection starts in a usable name as it is. -/
theorem startDatabase_of_usable {k : PoolKey} {d : String}
    (hd : Command.isDatabaseName d.toList = true) (ht : Text.trimmed d = d) :
    startDatabase { k with database := some d } = d := by
  have hne : d.isEmpty = false := by
    rw [String.isEmpty_eq_false_iff]
    rintro rfl
    exact absurd hd (by decide)
  rw [startDatabase, Option.map_some, ht, Option.filter_some, hne]
  rfl

/-! ## Pool calls of a session -/

section Calls

variable (party : Session.Party σ Connection Request Answer) (k : PoolKey) (p : Pool Connection)
  (s : σ)

theorem hold_acquire : (Session.acquire k : Session Connection Request Answer _).hold party.answer
    (p, s) = ((p.perform party.toOutside (.acquire k) s).1.toHandle,
      (p.perform party.toOutside (.acquire k) s).2) := rfl

theorem hold_replace (c : Connection) :
    (Session.replace k c : Session Connection Request Answer _).hold party.answer (p, s) =
      ((p.perform party.toOutside (.replace k c) s).1.toHandle,
        (p.perform party.toOutside (.replace k c) s).2) := rfl

theorem hold_select (d : String) :
    (Session.select k d : Session Connection Request Answer _).hold party.answer (p, s) =
      ((), p.select k d, s) := by
  have hperform := Pool.perform_select party.toOutside p k d s
  show ((), (p.perform party.toOutside (.select k d) s).2) = _
  rw [hperform]

end Calls

/-! ## What a session sends -/

section Sends

variable {α : Type} {R : α → Prop} {d : Session Connection Request Answer α}
  (party : Session.Party σ Connection Request Answer) (w : Pool Connection × σ)

/-- A session that only calls the pool sends nothing. -/
theorem requestsIn_of_pool (h : d.Always (fun q => ∃ call, q = .pool call) R) :
    requestsIn (d.asked party.answer w) = [] := by
  refine List.filterMap_eq_nil_iff.mpr fun q hq => ?_
  obtain ⟨call, rfl⟩ := h.asked w q hq
  rfl

/-- A session that keeps to one handle sends all over it. -/
theorem eq_of_mem_requestsIn {c : Connection} (h : d.Always (Over c) R) :
    ∀ x ∈ requestsIn (d.asked party.answer w), x.1 = c := by
  intro x hx
  obtain ⟨q, hq, hserver⟩ := List.mem_filterMap.mp hx
  have hover := h.asked w q hq
  cases q with
  | pool call => exact hover.elim
  | server c' q =>
    cases hserver
    exact hover

/-- A session that keeps to one handle leaves the pool as it is. -/
theorem pool_of_over {c : Connection} (h : d.Always (Over c) R) :
    (d.hold party.answer w).2.1 = w.1 := by
  refine h.hold_unchanged party.answer Prod.fst ?_ w
  rintro q ⟨p, s⟩ hq
  cases q with
  | pool call => exact hq.elim
  | server c q => rfl

end Sends

/-! ## The invariant -/

/-- The session with the key `k` is where it was sent last. -/
structure Steady (k : PoolKey) (last : Option String) (p : Pool Connection) : Prop where
  tidy : ∃ owns, Pool.Tidy owns p
  selected : p.selection? k = last
  /-- A database that was used has a usable name. -/
  usable : ∀ d, last = some d → Command.isDatabaseName d.toList = true ∧ Text.trimmed d = d
  /-- The live handle is in the database that another one would start in. -/
  home : ∀ c, p.live? k = some c → c.database = startDatabase (p.target k)

namespace Steady

variable {k : PoolKey} {last : Option String} {p : Pool Connection}

theorem empty (settings : PoolSettings) (k : PoolKey) : Steady k none (Pool.empty settings) :=
  ⟨⟨_, .empty settings⟩, rfl, nofun, nofun⟩

/-- Where a connection would start. -/
theorem start (h : Steady k last p) :
    startDatabase (p.target k) = last.getD (startDatabase k) := by
  rw [Pool.target, h.selected]
  cases last with
  | none => rfl
  | some d =>
    obtain ⟨hd, ht⟩ := h.usable d rfl
    exact startDatabase_of_usable hd ht

/-- As long as nothing else is selected, each new live handle must be in the right place. -/
theorem keep (h : Steady k last p) {p' : Pool Connection} (ht : ∃ owns, Pool.Tidy owns p')
    (hs : p'.selected = p.selected)
    (hl : ∀ c, p'.live? k = some c → p.live? k = some c ∨ c.database = startDatabase (p.target k)) :
    Steady k last p' := by
  have hselection : p'.selection? k = p.selection? k := by
    rw [Pool.selection?, Pool.selection?, hs]
  refine ⟨ht, hselection.trans h.selected, h.usable, fun c hc => ?_⟩
  rw [Pool.target, hselection, ← Pool.target]
  rcases hl c hc with hlive | hdatabase
  · exact h.home c hlive
  · exact hdatabase

variable (net : Network σ)

/-- A connection is opened in the database that its key says. -/
theorem database_of_opened {target : PoolKey} {s : σ} {c : Connection}
    (h : (net.document.connect target s).1 = .opened c) : c.database = startDatabase target := by
  have hconnect : (net.document.connect target s).1 =
      (net.openDocument (.ofKey target) s).1.attempt target fun client =>
        ⟨client, startDatabase target⟩ := rfl
  rw [hconnect] at h
  cases hopen : (net.openDocument (.ofKey target) s).1 with
  | opened client =>
    rw [hopen] at h
    cases h
    rfl
  | _ =>
    rw [hopen] at h
    cases h

theorem acquire (h : Steady k last p) (s : σ) :
    ∃ r, (p.perform net.document.toOutside (.acquire k) s).1 = .handle r ∧
      Steady k last (p.perform net.document.toOutside (.acquire k) s).2.1 ∧
      ∀ c, r = .ok c →
        (p.perform net.document.toOutside (.acquire k) s).2.1.live? k = some c := by
  obtain ⟨owns, htidy⟩ := h.tidy
  obtain ⟨owns', r, hr, htidy', hok, hlive, -⟩ := htidy.acquire net.document.toOutside k s
  have hleaves : Pool.LeavesSelected (.acquire k : PoolCall Connection) := trivial
  refine ⟨r, hr, h.keep ⟨owns', htidy'⟩ (Pool.selected_perform _ hleaves p s) ?_, hok⟩
  intro c hc
  refine (hlive c hc).imp_right ?_
  rintro ⟨s', hs'⟩
  exact database_of_opened net hs'

theorem sweepAt (h : Steady k last p) (now : Nat) (s : σ) :
    Steady k last (p.perform net.document.toOutside (.sweepAt now) s).2.1 := by
  obtain ⟨owns, htidy⟩ := h.tidy
  obtain ⟨htidy', hlive⟩ := htidy.sweepAt net.document.toOutside now s
  have hleaves : Pool.LeavesSelected (.sweepAt now : PoolCall Connection) := trivial
  exact h.keep ⟨owns, htidy'⟩ (Pool.selected_perform _ hleaves p s) fun c hc =>
    Or.inl (hlive k c hc)

/-- A switch succeeds where a handle is live, and the session is in the other database then. -/
theorem switch (h : Steady k last p) {c : Connection} (hc : p.live? k = some c) {d : String}
    (hd : Command.isDatabaseName d.toList = true) (ht : Text.trimmed d = d) (s : σ) :
    ((Mongo.switch k c d).hold net.document.answer (p, s)).1 =
        .ok ⟨"switched to db " ++ d, some d⟩ ∧
      Steady k (some d) ((Mongo.switch k c d).hold net.document.answer (p, s)).2.1 := by
  obtain ⟨owns, htidy⟩ := h.tidy
  have hlive : (p.select k d).live? k = some c := hc
  obtain ⟨hr, htidy', hnew, -⟩ :=
    (htidy.select k d).replace net.document.toOutside hlive (c.within d) s
  have hleaves : Pool.LeavesSelected (.replace k (c.within d) : PoolCall Connection) := trivial
  have hkept := Pool.selected_perform net.document.toOutside hleaves (p.select k d) s
  have hselection : ((p.select k d).perform net.document.toOutside (.replace k (c.within d))
      s).2.1.selection? k = some d := by
    rw [Pool.selection?, hkept, ← Pool.selection?, Pool.selection?_select]
  have hsteady : Steady k (some d)
      ((p.select k d).perform net.document.toOutside (.replace k (c.within d)) s).2.1 := by
    refine ⟨⟨owns, htidy'⟩, hselection, fun d' hd' => ?_, fun c' hc' => ?_⟩
    · cases hd'
      exact ⟨hd, ht⟩
    · obtain rfl := Option.some.inj (hnew.symm.trans hc')
      rw [Pool.target, hselection]
      exact (startDatabase_of_usable hd ht).symm
  rw [Mongo.switch, Dialogue.hold_bind, hold_select, Dialogue.andThen, Dialogue.hold_bind,
    hold_replace, hr]
  exact ⟨rfl, hsteady⟩

/-- A command that does not call `use` leaves the session where it was, or where it says; all its
    requests go over a handle in the database where the session was. -/
theorem command (h : Steady k last p) {ambient : Ambient} {text : String}
    (hcall : callsUse ambient text = false) (s : σ) :
    Steady k ((usedBy text (Session.run net.document (execute ambient k text) p s).1).or last)
        (Session.run net.document (execute ambient k text) p s).2.1 ∧
      ∀ x ∈ requestsIn ((execute ambient k text).asked net.document.answer (p, s)),
        x.1.database = last.getD (startDatabase k) := by
  rcases execute_cases ambient k text with ⟨e, he⟩ | ⟨command, work, hparse, he, hwork⟩
  · rw [Session.run, he]
    exact ⟨h, nofun⟩
  · obtain ⟨r, hr, hacquired, hok⟩ := h.acquire net s
    rw [Session.run, he, Dialogue.andThen, Dialogue.hold_bind, Dialogue.asked_bind, hold_acquire, hr]
    generalize (p.perform net.document.toOutside (.acquire k) s).2 = after at hacquired hok ⊢
    obtain ⟨p', s'⟩ := after
    cases r with
    | error e => exact ⟨hacquired, nofun⟩
    | ok c =>
      have hlive := hok c rfl
      -- what is asked first is no request
      show Steady k ((usedBy text ((work c).hold net.document.answer (p', s')).1).or last)
          ((work c).hold net.document.answer (p', s')).2.1 ∧
        ∀ x ∈ requestsIn ((work c).asked net.document.answer (p', s')), _
      rcases hwork with ⟨d, htarget, hd⟩ | ⟨htarget, hd⟩
      · have huses := use_of_target? hcall htarget
        obtain ⟨hout, hswitched⟩ := hacquired.switch net hlive huses.usable huses.trimmed s'
        have hname : usedName? text = some d := by
          rw [← target?_eq_usedName? hparse hcall, htarget]
        rw [hd c, hout, usedBy, hname]
        have hpool : (Mongo.switch k c d).Always (fun q => ∃ call, q = .pool call) _ :=
          switch_always ⟨_, rfl⟩ ⟨_, rfl⟩
        rw [requestsIn_of_pool net.document _ hpool]
        exact ⟨hswitched, nofun⟩
      · have hnone : usedBy text ((work c).hold net.document.answer (p', s')).1 = none := by
          cases ((work c).hold net.document.answer (p', s')).1 with
          | ok o => exact (target?_eq_usedName? hparse hcall).symm.trans htarget
          | error e => rfl
        rw [pool_of_over net.document (p', s') (hd c), hnone]
        refine ⟨hacquired, fun x hx => ?_⟩
        rw [eq_of_mem_requestsIn net.document (p', s') (hd c) x hx]
        exact (hacquired.home c hlive).trans hacquired.start

/-- A turn of the session. -/
theorem turn (h : Steady k last p) {t : Turn} (ht : t.On k) (s : σ) {later : List Entry}
    {e : Entry} {ts : List Turn}
    (he : chronicle net.document (t :: ts) p s = e :: later) :
    Steady k (e.use?.or last) e.pool ∧
      (∀ x ∈ e.sent, x.1.database = last.getD (startDatabase k)) ∧
      ∃ s', later = chronicle net.document ts e.pool s' := by
  rw [chronicle] at he
  obtain ⟨rfl, rfl⟩ := List.cons.inj he
  refine and_assoc.mp ⟨?_, ⟨_, rfl⟩⟩
  cases t with
  | command ambient k' text =>
    obtain ⟨rfl, hcall⟩ := ht
    obtain ⟨hsteady, hsent⟩ := h.command net hcall s
    rw [Entry.use?, Turn.session, Session.run, Dialogue.hold_bind, Dialogue.asked_bind]
    refine ⟨hsteady, fun x hx => hsent x ?_⟩
    rwa [Dialogue.asked, List.append_nil] at hx
  | call c =>
    cases c with
    | acquire k' =>
      obtain rfl : k' = k := ht
      obtain ⟨r, -, hacquired, -⟩ := h.acquire net s
      exact ⟨hacquired, nofun⟩
    | sweepAt now => exact ⟨h.sweepAt net now s, nofun⟩
    | _ => exact ht.elim

/-- All turns of the session. -/
theorem run (h : Steady k last p) {turns : List Turn} (hturns : ∀ t ∈ turns, t.On k) {s : σ}
    {earlier later : List Entry} {e : Entry}
    (he : chronicle net.document turns p s = earlier ++ e :: later) :
    Steady k (e.use?.or (lastUse last earlier)) e.pool ∧
      ∀ x ∈ e.sent, x.1.database = (lastUse last earlier).getD (startDatabase k) := by
  induction earlier generalizing turns last p s with
  | nil =>
    cases turns with
    | nil => cases he
    | cons t ts =>
      obtain ⟨hsteady, hsent, -⟩ := h.turn net (hturns t List.mem_cons_self) s he
      exact ⟨hsteady, hsent⟩
  | cons e' earlier ih =>
    cases turns with
    | nil => cases he
    | cons t ts =>
      obtain ⟨ht, hts⟩ := List.forall_mem_cons.mp hturns
      obtain ⟨hsteady, -, s', hlater⟩ := h.turn net ht s he
      exact ih hsteady hts hlater.symm

end Steady

/-! ## All runs -/

end Polyshell.Mongo
