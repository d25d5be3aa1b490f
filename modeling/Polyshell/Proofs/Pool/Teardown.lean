/-
  Keys that are given up while commands are at work.

  A call that gives keys up forgets their databases first, and lists their slots then.  Commands that
  are at work meanwhile go on: one may have its database noted behind the forgetting, and one whose
  slot was given up under it looks its key up anew, and opens a connection behind the listing.

  1. **Slots** — behind the listing every slot of the keys lies before a call that will give it up,
     unless its key was looked up since (`Listed`).

  2. **The way of such a call** — it forgets and lists, in this order, and the log has both (`Way`).

  3. **What is left** — when all is over, a key that was given up has the database that was noted
     behind the forgetting, if any, and a connection only if it was looked up behind the listing
     (`Logged.torn_down`).  Nothing else is left of it.
-/
import Polyshell.Proofs.Pool.Alone
import Polyshell.Proofs.Pool.Log
import Polyshell.Proofs.Pool.Shutdown
import Polyshell.Redis.Session

namespace Polyshell.Pool

variable {H Q A α : Type}

/-- A slot is made for a key that is looked up. -/
theorem eq_link_of_made {p : Pool H} {pt pt' : Point H} {k : PoolKey} {i : Nat}
    (h : (.made k i : Event H Q) ∈ Concert.events p pt pt') : pt = .link k := by
  cases shows_of_mem_events h
  rfl

section Calls

variable [DecidableEq H] {c : PoolCall H}

/-- Whether an event is the beginning of a call. -/
def Event.calls (c : PoolCall H) : Event H Q → Bool
  | .called c' => c' = c
  | _ => false

theorem eq_called_of_calls {e : Event H Q} (h : e.calls c = true) : e = .called c := by
  cases e with
  | called c' => rw [of_decide_eq_true h]
  | _ => cases h

/-- A history is parted by the latest call of a kind. -/
theorem exists_parted {history : History H Q} {t : Nat}
    (h : (history.find? fun x => x.2.calls c).map Prod.fst = some t) :
    ∃ earlier, history = (history.takeWhile fun x => !x.2.calls c) ++ (t, .called c) :: earlier := by
  obtain ⟨⟨t', e⟩, hfind, rfl⟩ := Option.map_eq_some_iff.mp h
  obtain ⟨hcalls, later, earlier, rfl, hlater⟩ := List.find?_eq_some_iff_append.mp hfind
  refine ⟨earlier, ?_⟩
  rw [List.takeWhile_append_of_pos hlater, List.takeWhile_cons, hcalls, ← eq_called_of_calls hcalls]
  simp

end Calls

namespace Concert

/-! ## Slots behind a listing -/

/-- The slots of the keys that were listed lie before a call that will give them up; all but those of
    keys that were looked up since. -/
def Listed (m : Concert H Q A α) (s : Scope) (since : Log H) : Prop :=
  ∀ k i, s.covers k = true → Made m.history k i → m.pool.isRetired i = false →
    (∃ t pt, m.point? t = some pt ∧ pt.Pends i) ∨ ∃ t, (t, .link k) ∈ since

section Listed

variable {m m' : Concert H Q A α} {mv : Move H A} {s : Scope} {since : Log H}

/-- What is listed lies before the call that lists it. -/
theorem Listed.of_survey (hsound : m.Sound) {a : Account} {next : PoolResult H → Session H Q A α}
    (hpt : m.point? mv.task = some (.survey (.of s) a)) :
    (m.section? mv (.survey (.of s) a) next).Listed s [] := by
  intro k i hk hmade hr
  -- the section makes no slot, and so the slot is one that the table lists
  have hbefore : Made m.history k i := by
    rcases made_noted.mp hmade with hnew | hbefore
    · cases eq_link_of_made hnew
    · exact hbefore
  have hactive : m.pool.isRetired i = false := (relist_isRetired i).symm.trans hr
  exact Or.inl ⟨mv.task, pends_of_survey hsound hpt hk hbefore hactive⟩

/-- They go on to, and keys that are looked up are noted. -/
theorem Listed.step? (h : m.Listed s since) (hsound : m.Sound) (hs : Stepped m mv m') :
    m'.Listed s (m.turn mv ++ since) := by
  intro k i hk hmade hr
  have hold : Made m.history k i → (∃ t pt, m'.point? t = some pt ∧ pt.Pends i) ∨
      ∃ t, (t, .link k) ∈ m.turn mv ++ since := by
    intro hbefore
    have hactive := hs.active_before (fun _ _ => hsound.books.orderly.made k i hbefore) hr
    rcases h k i hk hbefore hactive with ⟨t, pt, hpt, hpends⟩ | ⟨t, hlink⟩
    · exact Or.inl (hs.pends hpt hpends hr)
    · exact Or.inr ⟨t, List.mem_append_right _ hlink⟩
  have hquiet : ∀ e : Event H Q, m'.history = noted mv.task [e] m.history → e ≠ .made k i →
      Made m.history k i := by
    intro e hhistory he
    rw [hhistory] at hmade
    rcases made_noted.mp hmade with hnew | hbefore
    · exact absurd (List.mem_singleton.mp hnew).symm he
    · exact hbefore
  cases hs with
  | called ht => exact hold (hquiet _ rfl nofun)
  | sent ht => exact hold (hquiet _ rfl nofun)
  | returned ht => exact hold (hquiet _ rfl nofun)
  | @ran pt next ht hfree =>
    rcases made_noted.mp hmade with hnew | hbefore
    · obtain rfl := eq_link_of_made hnew
      exact Or.inr ⟨mv.task,
        List.mem_append_left _ (mem_turn.mpr ⟨rfl, point?_of_calling ht⟩)⟩
    · exact hold hbefore

end Listed

/-! ## The way of a call that gives keys up -/

/-- How far such a call has come. -/
inductive Way (s : Scope) (a : Account) (t : Nat) (log : Log H) (m : Concert H Q A α) : Prop
  | begun {c} (hc : firstPoint c = .forget s a) (h : m.point? t = some (.start c))
  | forgetting (h : m.point? t = some (.forget s a))
  | surveying {meanwhile before} (hlog : log = meanwhile ++ (t, .forget s a) :: before)
      (h : m.point? t = some (.survey (.of s) a))
  /-- It has listed the slots, and what came since is `since`. -/
  | listed {since meanwhile before} (hlog : log = since ++ (t, .survey (.of s) a) ::
      (meanwhile ++ (t, .forget s a) :: before)) (h : m.Listed s since)

/-- A call that gives keys up forgets their databases first. -/
theorem begin_of_firstPoint {c : PoolCall H} {s : Scope} {a : Account}
    (hc : firstPoint c = .forget s a) (p : Pool H) : (p.begin c).2 = .forget s a := by
  cases c <;> first | exact hc | cases hc

section Way

variable {settings : PoolSettings} {works : List (Session H Q A α)} {log : Log H}
  {m m' : Concert H Q A α} {mv : Move H A} {s : Scope} {a : Account} {t : Nat}

theorem Way.step? (h : Way s a t log m) (hsound : m.Sound) (hs : Stepped m mv m') :
    Way s a t (m.turn mv ++ log) m' := by
  cases h with
  | @begun c hc hpt =>
    rcases hs.stays hpt (fun r h => by cases h) with hkept | ⟨next, ht, hm'⟩
    · exact .begun hc hkept
    · subst ht hm'
      refine .forgetting ((point?_section?_self hpt next).trans ?_)
      exact congrArg some (begin_of_firstPoint hc _)
  | forgetting hpt =>
    rcases hs.stays hpt (fun r h => by cases h) with hkept | ⟨next, ht, hm'⟩
    · exact .forgetting hkept
    · subst ht hm'
      have hlog : m.turn mv ++ log = [] ++ (mv.task, .forget s a) :: log := by
        rw [turn_of_point? hpt]
        rfl
      exact .surveying hlog (point?_section?_self hpt next)
  | @surveying meanwhile before hlog hpt =>
    rcases hs.stays hpt (fun r h => by cases h) with hkept | ⟨next, ht, hm'⟩
    · have hlog' : m.turn mv ++ log = (m.turn mv ++ meanwhile) ++ (t, .forget s a) :: before := by
        rw [hlog, List.append_assoc]
      exact .surveying hlog' hkept
    · subst ht hm'
      have hlog' : m.turn mv ++ log = [] ++ (mv.task, .survey (.of s) a) ::
          (meanwhile ++ (mv.task, .forget s a) :: before) := by
        rw [turn_of_point? hpt, hlog]
        rfl
      exact .listed hlog' (Listed.of_survey hsound hpt)
  | @listed since meanwhile before hlog hlisted =>
    have hlog' : m.turn mv ++ log = (m.turn mv ++ since) ++ (t, .survey (.of s) a) ::
        (meanwhile ++ (t, .forget s a) :: before) := by
      rw [hlog, List.append_assoc]
    exact .listed hlog' (hlisted.step? hsound hs)

/-- A call that gives keys up and was made has come so far. -/
theorem Logged.way (h : Logged settings works log m) {c : PoolCall H}
    (hc : firstPoint c = .forget s a) (hcalled : (t, .called c) ∈ m.history) :
    Way s a t log m := by
  induction h with
  | start => cases hcalled
  | @step log m mv m' h hs ih =>
    have hstepped := step?_stepped hs
    rcases hstepped.called_mem hcalled with hbefore | hstart
    · exact (ih hbefore).step? h.reachable.sound hstepped
    · exact .begun hc hstart

end Way

/-! ## What is left -/

variable {settings : PoolSettings} {works : List (Session H Q A α)} {log : Log H}
  {m : Concert H Q A α}

/-- When no call is under way, a connection that is pooled lies in a slot that was not given up. -/
theorem Reachable.active_of_live? (h : Reachable settings works m) (hidle : ∀ t, m.point? t = none)
    {k : PoolKey} (hlive : m.pool.live? k ≠ none) :
    ∃ i, Made m.history k i ∧ m.pool.isRetired i = false := by
  obtain ⟨x, hx⟩ := Option.ne_none_iff_exists'.mp hlive
  obtain ⟨i, hslot, hhandle⟩ := Option.bind_eq_some_iff.mp hx
  refine ⟨i, h.sound.books.orderly.linked k i (mem_of_slotOf? hslot), ?_⟩
  cases hr : m.pool.isRetired i with
  | false => rfl
  | true =>
    obtain ⟨t, k', r, hpt⟩ := h.emptied i hr (occupied_of_handle? hhandle)
    rw [hidle] at hpt
    cases hpt

/-- When a call that gives keys up was made and all calls are over, a key that was given up has the
    database that was noted behind the forgetting, and a connection only if it was looked up behind
    the listing. -/
theorem Logged.given_up (h : Logged settings works log m) (hidle : ∀ t, m.point? t = none) {t : Nat}
    {c : PoolCall H} {s : Scope} {a : Account} (hc : firstPoint c = .forget s a)
    (hcalled : (t, .called c) ∈ m.history) :
    ∃ since meanwhile before, log = since ++ (t, .survey (.of s) a) ::
        (meanwhile ++ (t, .forget s a) :: before) ∧
      ∀ k, s.covers k = true → m.pool.selection? k = recorded k (since ++ meanwhile) ∧
        (m.pool.live? k ≠ none → ∃ t', (t', .link k) ∈ since) := by
  have hno : ∀ {t pt}, m.point? t ≠ some pt := fun {t pt} hpt => by
    rw [hidle] at hpt
    cases hpt
  cases h.way hc hcalled with
  | begun hc' hpt => exact absurd hpt hno
  | forgetting hpt => exact absurd hpt hno
  | surveying hlog hpt => exact absurd hpt hno
  | @listed since meanwhile before hlog hlisted =>
    refine ⟨since, meanwhile, before, hlog, fun k hk => ⟨?_, fun hlive => ?_⟩⟩
    · have hsurvey : recorded k ((t, .survey (.of s) a) :: (meanwhile ++ (t, .forget s a) :: before)) =
          recorded k meanwhile := recorded_append_forget hk meanwhile before t a
      rw [h.selection? k, hlog, recorded_append_congr hsurvey]
    · obtain ⟨i, hmade, hr⟩ := h.reachable.active_of_live? hidle hlive
      rcases hlisted k i hk hmade hr with ⟨t', pt, hpt, -⟩ | hlink
      · exact absurd hpt hno
      · exact hlink

/-- When a session was torn down and all calls are over, nothing is left of it but what commands did
    that were at work meanwhile: a database that one of them had noted behind the forgetting, and a
    connection that one of them looked up behind the listing. -/
theorem Logged.torn_down (h : Logged settings works log m) (hidle : ∀ t, m.point? t = none) {t : Nat}
    {id : String} (hcalled : (t, .called (.removeSession id)) ∈ m.history) :
    ∃ since meanwhile before, log = since ++ (t, .survey (.of (.session id)) .theNumber) ::
        (meanwhile ++ (t, .forget (.session id) .theNumber) :: before) ∧
      ∀ k, k.session = some id → m.pool.selection? k = recorded k (since ++ meanwhile) ∧
        (m.pool.live? k ≠ none → ∃ t', (t', .link k) ∈ since) := by
  obtain ⟨since, meanwhile, before, hlog, hkeys⟩ := h.given_up hidle rfl hcalled
  exact ⟨since, meanwhile, before, hlog, fun k hk => hkeys k (decide_eq_true hk)⟩

/-- A connection is being opened while its session is torn down: it is closed as soon as the command
    has it, and nothing is left. -/
theorem Logged.torn_down_connecting :
    ∃ (k : PoolKey) (log : Log Nat) (m : Concert Nat Redis.Request Redis.Answer Unit),
      Logged ⟨0, 0, 0, 1, 0⟩ [(Redis.execute k "GET a").bind fun _ => .done (),
        (Session.call (.removeSession "1")).bind fun _ => .done ()] log m ∧
      k.session = some "1" ∧ m.isOver = true ∧ (∀ t, m.point? t = none) ∧
      (1, .called (.removeSession "1")) ∈ m.history ∧ closings (· = 0) m.history = 1 ∧
      m.pool.live? k = none ∧ ∃ since meanwhile before : Log Nat,
        log = since ++ (1, .survey (.of (.session "1")) .theNumber) ::
          (meanwhile ++ (1, .forget (.session "1") .theNumber) :: before) ∧
        m.pool.selection? k = recorded k (since ++ meanwhile) := by
  let k : PoolKey := ⟨.keyValue, "localhost", 6379, none, none, none, some "1"⟩
  let turn (t : Nat) : Move Nat Redis.Answer := ⟨t, 0, .opened t, .ok .okay, []⟩
  let mvs := [0, 0, 0, 0, 0, 1, 1, 1, 1, 0, 0, 0, 1, 1, 1, 1].map turn
  have hplay : ((Concert.start ⟨0, 0, 0, 1, 0⟩ [(Redis.execute k "GET a").bind fun _ => .done (),
      (Session.call (.removeSession "1")).bind fun _ => .done ()]).play? mvs).any (fun m =>
        m.isOver && m.isIdle &&
          (m.history.find? fun x => x.2.calls (.removeSession "1")).map Prod.fst = some 1 &&
          closings (· = 0) m.history = 1 && m.pool.live? k = none :
          Concert Nat Redis.Request Redis.Answer Unit → Bool) = true := by decide +kernel
  obtain ⟨m, hrun, hfacts⟩ := (Option.any_eq_true _ _).mp hplay
  simp only [Bool.and_eq_true, decide_eq_true_eq] at hfacts
  obtain ⟨⟨⟨⟨hover, hidle⟩, hcalled⟩, hclosings⟩, hlive⟩ := hfacts
  have hmem : (1, .called (.removeSession "1")) ∈ m.history := by
    obtain ⟨earlier, hparted⟩ := exists_parted hcalled
    rw [hparted]
    exact List.mem_append_right _ List.mem_cons_self
  have hreach : Reachable _ _ m := ⟨mvs, hrun⟩
  obtain ⟨log, hlogged⟩ := hreach.logged
  obtain ⟨since, meanwhile, before, hlog, hkeys⟩ := hlogged.torn_down (point?_of_isIdle hidle) hmem
  exact ⟨k, log, m, hlogged, rfl, hover, point?_of_isIdle hidle, hmem, hclosings, hlive, since, meanwhile,
    before, hlog, (hkeys k rfl).1⟩

/-- The slot in which a command waits is swept away under it while its session is torn down.  The
    command looks its key up anew, and all calls being over, its connection and the database that it
    selected are left, although it began before the tear-down did. -/
theorem Prompted.torn_down_overtaken :
    ∃ (k : PoolKey) (m : Concert Nat Redis.Request Redis.Answer Unit)
      (later earlier : History Nat Redis.Request),
      Prompted ⟨0, 0, 0, 1, 0⟩ [(Redis.execute k "PING").bind fun _ => .done (),
        (Session.call (.sweepAt 0)).bind fun _ => .done (),
        (Redis.execute k "SELECT 3").bind fun _ => .done (),
        (Session.call (.removeSession "1")).bind fun _ => .done ()] m ∧
      k.session = some "1" ∧ m.isOver = true ∧
      m.history = later ++ (3, .called (.removeSession "1")) :: earlier ∧
      (∀ x ∈ later, x.2.calls (.acquire k) = false) ∧
      m.pool.live? k = some 2 ∧ m.pool.selection? k = some "3" := by
  let k : PoolKey := ⟨.keyValue, "localhost", 6379, none, none, none, some "1"⟩
  -- the first command finds no server, and so the sweep finds its slot empty
  let turn (t : Nat) : Move Nat Redis.Answer :=
    ⟨t, 0, if t = 0 then .timedOut else .opened t, .ok .okay, []⟩
  let mvs := [0, 0, 0, 0, 0, 1, 1, 1, 2, 2, 2, 3, 3, 3, 3, 0, 0, 1, 1, 1,
    2, 2, 2, 2, 2, 2, 2, 2, 2, 2, 2, 3, 3].map turn
  have hplay : ((start ⟨0, 0, 0, 1, 0⟩ [(Redis.execute k "PING").bind fun _ => .done (),
      (Session.call (.sweepAt 0)).bind fun _ => .done (),
      (Redis.execute k "SELECT 3").bind fun _ => .done (),
      (Session.call (.removeSession "1")).bind fun _ => .done ()]).promptly? mvs).any (fun m =>
        m.isOver && (m.history.find? fun x => x.2.calls (.removeSession "1")).map Prod.fst = some 3 &&
          (m.history.takeWhile fun x => !x.2.calls (.removeSession "1")).all
            (fun x => !x.2.calls (.acquire k)) &&
          m.pool.live? k = some 2 && m.pool.selection? k = some "3" :
          Concert Nat Redis.Request Redis.Answer Unit → Bool) = true := by decide +kernel
  obtain ⟨m, hrun, hfacts⟩ := (Option.any_eq_true _ _).mp hplay
  simp only [Bool.and_eq_true, decide_eq_true_eq] at hfacts
  obtain ⟨⟨⟨⟨hover, hcalled⟩, hbegun⟩, hlive⟩, hselected⟩ := hfacts
  obtain ⟨earlier, hparted⟩ := exists_parted hcalled
  refine ⟨k, m, _, earlier, ⟨mvs, hrun⟩, rfl, hover, hparted, fun x hx => ?_, hlive, hselected⟩
  exact (Bool.not_eq_true' _).mp (List.all_eq_true.mp hbegun x hx)

end Concert

end Polyshell.Pool
