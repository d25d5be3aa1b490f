/-
  How often an acquisition calls the connector.

  An acquisition that finds no connection attempts to open one, again and again until an attempt
  succeeds or as many were made as the settings allow, which is at least one.

  1. **Attempts** — the connector answers by the world it is called in, and that depends on the
     attempts before.  `answerAt` is the sequence of its answers, as if attempts went on for ever.
     Dialling makes those up to the first that succeeds (`dial_of_opened`), or else all that it may
     (`dial_of_refused`).

  2. **Acquisitions** — on a key without a connection an acquisition dials; of what comes of that it
     keeps a handle, and otherwise nothing but the key in its table
     (`Tidy.perform_acquire_of_absent`).

  3. **Failures** — so a failed acquisition can be seen neither in the connections, nor in their
     number, nor in what was selected, nor by the next acquisition (`Tidy.untraced`).  Hence
     `acquire_exact`.
-/
import Polyshell.Proofs.Pool.Dials

namespace Polyshell.Pool

variable {H σ : Type}

/-! ## Attempts -/

/-- How the attempts to connect end one after another, as if none of them succeeded; `attempt` is
    the number of the first one. -/
def answerAt (o : Outside σ H) (settings : PoolSettings) (target : PoolKey) :
    (attempt : Nat) → σ → Nat → Attempt H
  | _, s, 0 => (o.connect target s).1
  | attempt, s, n + 1 =>
    answerAt o settings target (attempt + 1)
      (o.pause (settings.pause attempt) (o.connect target s).2) n

/-- An attempt that opened no connection. -/
def Refused (got : Attempt H) : Prop := ∀ h, got ≠ .opened h

theorem Refused.outcome {got : Attempt H} (h : Refused got) (settings : PoolSettings)
    (k : PoolKey) : ∃ e, outcome settings k got = .error e := by
  cases got with
  | opened x => exact absurd rfl (h x)
  | failed e => exact ⟨e, rfl⟩
  | timedOut => exact ⟨_, rfl⟩

section Attempts

variable (o : Outside σ H) {settings : PoolSettings} {target : PoolKey}

theorem dial_opened {left attempt : Nat} {k : PoolKey} {s : σ} {h : H}
    (hgot : (o.connect target s).1 = .opened h) :
    dial o settings k target left attempt s = (.ok h, (o.connect target s).2) := by
  cases left <;> rw [dial, hgot] <;> rfl

theorem dial_again {left attempt : Nat} {k : PoolKey} {s : σ}
    (hgot : Refused (o.connect target s).1) :
    dial o settings k target (left + 1) attempt s =
      dial o settings k target left (attempt + 1)
        (o.pause (settings.pause attempt) (o.connect target s).2) := by
  obtain ⟨e, he⟩ := hgot.outcome settings k
  rw [dial, he]

/-- Dialling ends at the first attempt that succeeds. -/
theorem dial_of_opened {left i : Nat} (hi : i ≤ left) (k : PoolKey) {attempt : Nat} {s : σ} {h : H}
    (hopened : answerAt o settings target attempt s i = .opened h)
    (hrefused : ∀ j < i, Refused (answerAt o settings target attempt s j)) (record : List PoolKey) :
    (dial o settings k target left attempt s).1 = .ok h ∧
      (dial o.recording settings k target left attempt (record, s)).2.1 =
        List.replicate (i + 1) target ++ record := by
  induction i generalizing left attempt s record with
  | zero =>
    rw [dial_opened o hopened, dial_opened o.recording (s := (record, s)) hopened]
    exact ⟨rfl, rfl⟩
  | succ i ih =>
    obtain ⟨left, rfl⟩ : ∃ left', left = left' + 1 := ⟨left - 1, by omega⟩
    have hfirst := hrefused 0 (Nat.succ_pos i)
    have hlater : ∀ j < i, Refused (answerAt o settings target (attempt + 1)
        (o.pause (settings.pause attempt) (o.connect target s).2) j) :=
      fun j hj => hrefused (j + 1) (Nat.succ_lt_succ hj)
    obtain ⟨hok, hdialled⟩ := ih (Nat.le_of_succ_le_succ hi) hopened hlater (target :: record)
    rw [dial_again o hfirst, dial_again o.recording (s := (record, s)) hfirst,
      List.replicate_succ', List.append_assoc]
    exact ⟨hok, hdialled⟩

/-- If none succeeds it makes all attempts, and ends as the last of them. -/
theorem dial_of_refused {left : Nat} (k : PoolKey) {attempt : Nat} {s : σ}
    (hrefused : ∀ j ≤ left, Refused (answerAt o settings target attempt s j))
    (record : List PoolKey) :
    (dial o settings k target left attempt s).1 =
        outcome settings k (answerAt o settings target attempt s left) ∧
      (dial o.recording settings k target left attempt (record, s)).2.1 =
        List.replicate (left + 1) target ++ record := by
  induction left generalizing attempt s record with
  | zero => exact ⟨rfl, rfl⟩
  | succ left ih =>
    have hfirst := hrefused 0 (Nat.zero_le _)
    have hlater : ∀ j ≤ left, Refused (answerAt o settings target (attempt + 1)
        (o.pause (settings.pause attempt) (o.connect target s).2) j) :=
      fun j hj => hrefused (j + 1) (Nat.succ_le_succ hj)
    obtain ⟨hlast, hdialled⟩ := ih hlater (target :: record)
    rw [dial_again o hfirst, dial_again o.recording (s := (record, s)) hfirst,
      List.replicate_succ', List.append_assoc]
    exact ⟨hlast, hdialled⟩

end Attempts

/-! ## Acquisitions -/

section Acquisitions

variable {owns : PoolKey → Nat → Prop} {p : Pool H} {k : PoolKey} (o : Outside σ H)

/-- What dialling leaves in a pool: the key in its table, and the handle if it gave one. -/
def Contents.dialledAs (x : Contents H) (k : PoolKey) (now : Nat) : Except ShellError H → Contents H
  | .ok h => (x.enlist k).put k (some ⟨h, now⟩)
  | .error _ => x.enlist k

/-- An acquisition of a key without a connection dials. -/
theorem Tidy.perform_acquire_of_absent (h : Tidy owns p) (hopen : p.closed = false)
    (habsent : p.entryOf? k = none) (s : σ) :
    (p.perform o (.acquire k) s).1 =
        .handle (dial o p.settings k (p.target k) (p.settings.attempts - 1) 1 s).1 ∧
      (p.perform o (.acquire k) s).2.1.contents =
        p.contents.dialledAs k (o.clock (p.perform o (.acquire k) s).2.2)
          (dial o p.settings k (p.target k) (p.settings.attempts - 1) 1 s).1 ∧
      (p.perform o (.acquire k) s).2.2 =
        (dial o p.settings k (p.target k) (p.settings.attempts - 1) 1 s).2 := by
  have hmirrored := (h.perform_contents o (.acquire k) s).2
  have hclosed : p.contents.closed = false := hopen
  have hentry : p.contents.entry k = none := habsent
  rw [Contents.perform, hclosed, if_neg Bool.false_ne_true, Contents.acquire, hentry] at hmirrored
  obtain ⟨hresult, hrest⟩ := Prod.mk.inj hmirrored
  obtain ⟨-, hrest⟩ := Prod.mk.inj hrest
  obtain ⟨hcontents, hworld⟩ := Prod.mk.inj hrest
  refine ⟨hresult.symm, ?_, hworld.symm⟩
  rw [← hcontents, ← hworld]
  rfl

/-- What it calls the connector with is what dialling does. -/
theorem Tidy.dials_of_absent (h : Tidy owns p) (hopen : p.closed = false)
    (habsent : p.entryOf? k = none) (s : σ) : dials o p (.acquire k) s =
      (dial o.recording p.settings k (p.target k) (p.settings.attempts - 1) 1
        ([], s)).2.1.reverse := by
  obtain ⟨-, -, hworld⟩ := h.perform_acquire_of_absent o.recording hopen habsent ([], s)
  rw [dials, hworld]

/-- A key that is put into the table has no connection by that. -/
theorem Contents.countP_enlist {x : Contents H} (habsent : x.entry k = none) :
    (x.enlist k).keys.countP (fun k' => (x.entry k').isSome) =
      x.keys.countP fun k' => (x.entry k').isSome := by
  rw [enlist]
  dsimp only
  split
  · rfl
  · rw [List.countP_append, List.countP_singleton, habsent]
    rfl

/-- An acquisition behind another one that failed cannot tell. -/
theorem Contents.dialledAs_enlist (x : Contents H) (k : PoolKey) (now : Nat)
    (r : Except ShellError H) : (x.enlist k).dialledAs k now r = x.dialledAs k now r := by
  have hlisted : k ∈ (x.enlist k).keys := by
    rw [enlist]
    dsimp only
    split
    · assumption
    · exact List.mem_append_right _ (List.mem_singleton_self k)
  cases r <;> rw [dialledAs, dialledAs, enlist_of_mem hlisted]

/-- A pool that differs from another in nothing that its callers can see, as far as the connections,
    their number, the selected databases and the acquisition of a key go. -/
structure Untraced (k : PoolKey) (before behind : Pool H) : Prop where
  entries : behind.entryOf? = before.entryOf?
  selected : behind.selected = before.selected
  size : ∀ {τ : Type} (o : Outside τ H) (w : τ),
    (behind.perform o .size w).1 = (before.perform o .size w).1
  dials : ∀ {τ : Type} (o : Outside τ H) (w : τ),
    dials o behind (.acquire k) w = dials o before (.acquire k) w
  answer : ∀ {τ : Type} (o : Outside τ H) (w : τ),
    (behind.perform o (.acquire k) w).1 = (before.perform o (.acquire k) w).1
  world : ∀ {τ : Type} (o : Outside τ H) (w : τ),
    (behind.perform o (.acquire k) w).2.2 = (before.perform o (.acquire k) w).2.2
  contents : ∀ {τ : Type} (o : Outside τ H) (w : τ),
    (behind.perform o (.acquire k) w).2.1.contents = (before.perform o (.acquire k) w).2.1.contents

/-- A failed acquisition puts its key into the table, and nobody can tell. -/
theorem Tidy.untraced (h : Tidy owns p) (hopen : p.closed = false) (habsent : p.entryOf? k = none)
    {owns' : PoolKey → Nat → Prop} {q : Pool H} (hq : Tidy owns' q)
    (hselected : q.selected = p.selected) (hcontents : q.contents = p.contents.enlist k) :
    Untraced k p q := by
  have hentries : q.entryOf? = p.entryOf? := congrArg Contents.entry hcontents
  have hclosed : q.closed = false := (congrArg Contents.closed hcontents).trans hopen
  have hsettings : q.settings = p.settings := congrArg Contents.settings hcontents
  have htarget : q.target k = p.target k := target_congr hselected k
  have habsent' : q.entryOf? k = none := (congrFun hentries k).trans habsent
  have hagain : ∀ {τ : Type} (o : Outside τ H) (w : τ),
      (q.perform o (.acquire k) w).1 = (p.perform o (.acquire k) w).1 ∧
        (q.perform o (.acquire k) w).2.1.contents = (p.perform o (.acquire k) w).2.1.contents ∧
        (q.perform o (.acquire k) w).2.2 = (p.perform o (.acquire k) w).2.2 := by
    intro τ o w
    obtain ⟨hanswer, hbehind, hworld⟩ := h.perform_acquire_of_absent o hopen habsent w
    obtain ⟨hanswer', hbehind', hworld'⟩ := hq.perform_acquire_of_absent o hclosed habsent' w
    rw [hsettings, htarget] at hanswer' hbehind' hworld'
    have hsame := hworld'.trans hworld.symm
    refine ⟨hanswer'.trans hanswer.symm, ?_, hsame⟩
    rw [hbehind', hbehind, hcontents, Contents.dialledAs_enlist, hsame]
  refine ⟨hentries, hselected, fun o w => ?_, fun o w => ?_, fun o w => (hagain o w).1,
    fun o w => (hagain o w).2.2, fun o w => (hagain o w).2.1⟩
  · have hsize := congrArg Prod.fst (h.perform_contents o .size w).2
    have hsize' := congrArg Prod.fst (hq.perform_contents o .size w).2
    rw [← hsize, ← hsize', hcontents]
    exact congrArg PoolResult.number (Contents.countP_enlist (x := p.contents) habsent)
  · rw [dials, (hagain o.recording ([], w)).2.2, dials]

/-- If an attempt succeeds, an acquisition makes no further one and keeps its connection. -/
theorem Tidy.acquire_of_opened (h : Tidy owns p) (hopen : p.closed = false)
    (habsent : p.entryOf? k = none) {settings : PoolSettings} (hsettings : p.settings = settings)
    {s : σ} {i : Nat} {x : H} (hi : i < settings.attempts)
    (hopened : answerAt o settings (p.target k) 1 s i = .opened x)
    (hrefused : ∀ j < i, Refused (answerAt o settings (p.target k) 1 s j)) :
    dials o p (.acquire k) s = List.replicate (i + 1) (p.target k) ∧
      (p.perform o (.acquire k) s).1 = .handle (.ok x) ∧
      (p.perform o (.acquire k) s).2.1.contents =
        (p.contents.enlist k).put k (some ⟨x, o.clock (p.perform o (.acquire k) s).2.2⟩) := by
  subst hsettings
  obtain ⟨hresult, hcontents, -⟩ := h.perform_acquire_of_absent o hopen habsent s
  have hlast : i ≤ p.settings.attempts - 1 := Nat.le_sub_one_of_lt hi
  obtain ⟨hok, hdialled⟩ := dial_of_opened o hlast k hopened hrefused []
  rw [hok] at hresult hcontents
  refine ⟨?_, hresult, hcontents⟩
  rw [h.dials_of_absent o hopen habsent, hdialled, List.append_nil, List.reverse_replicate]

/-- If none succeeds it makes all that it may, ends as the last of them, and leaves no trace. -/
theorem Tidy.acquire_of_refused (h : Tidy owns p) (hopen : p.closed = false)
    (habsent : p.entryOf? k = none) {settings : PoolSettings} (hsettings : p.settings = settings)
    {s : σ}
    (hrefused : ∀ i < settings.attempts, Refused (answerAt o settings (p.target k) 1 s i)) :
    dials o p (.acquire k) s = List.replicate settings.attempts (p.target k) ∧
      (p.perform o (.acquire k) s).1 = .handle (outcome settings k
        (answerAt o settings (p.target k) 1 s (settings.attempts - 1))) ∧
      Untraced k p (p.perform o (.acquire k) s).2.1 := by
  subst hsettings
  obtain ⟨hresult, hcontents, -⟩ := h.perform_acquire_of_absent o hopen habsent s
  obtain ⟨⟨owns', hbehind⟩, -⟩ := h.perform_contents o (.acquire k) s
  have hattempts := attempts_pred p.settings
  have hall : ∀ i ≤ p.settings.attempts - 1,
      Refused (answerAt o p.settings (p.target k) 1 s i) :=
    fun i hi => hrefused i (by omega)
  obtain ⟨hend, hdialled⟩ := dial_of_refused o k hall []
  obtain ⟨e, he⟩ := (hall _ (Nat.le_refl _)).outcome p.settings k
  have henlisted : (p.perform o (.acquire k) s).2.1.contents = p.contents.enlist k := by
    rw [hcontents, hend, he]
    rfl
  have hleaves : LeavesSelected (.acquire k : PoolCall H) := trivial
  have hselected := selected_perform o hleaves p s
  refine ⟨?_, hresult.trans (by rw [hend]), h.untraced hopen habsent hbehind hselected henlisted⟩
  rw [h.dials_of_absent o hopen habsent, hdialled, List.append_nil, List.reverse_replicate,
    Nat.add_comm, hattempts]

/-- In every state of a pool that was not shut down, an acquisition of a key without a connection
    calls the connector until an attempt succeeds, or as often as it may, each time with the same
    target.  It keeps the connection of the attempt that succeeded.  If there is none it ends with
    the error of the last attempt, and nobody can tell afterwards that it was made. -/
theorem acquire_exact (settings : PoolSettings) (before : List (PoolCall H)) (s : σ) (k : PoolKey)
    (hopen : (performAll o (.empty settings) before s).2.1.closed = false)
    (habsent : (performAll o (.empty settings) before s).2.1.entryOf? k = none) :
    let reached := (performAll o (.empty settings) before s).2
    let behind := reached.1.perform o (.acquire k) reached.2
    let target := reached.1.target k
    let most := max 1 settings.retryAttempts
    let answer := answerAt o settings target 1 reached.2
    (∀ i h, i < most → answer i = .opened h → (∀ j < i, Refused (answer j)) →
      dials o reached.1 (.acquire k) reached.2 = List.replicate (i + 1) target ∧
        behind.1 = .handle (.ok h) ∧ behind.2.1.entryOf? k = some ⟨h, o.clock behind.2.2⟩ ∧
        (∀ k', k' ≠ k → behind.2.1.entryOf? k' = reached.1.entryOf? k') ∧
        behind.2.1.selected = reached.1.selected) ∧
    ((∀ i < most, Refused (answer i)) →
      dials o reached.1 (.acquire k) reached.2 = List.replicate most target ∧
        (∀ e, answer (most - 1) = .failed e → behind.1 = .handle (.error e)) ∧
        (answer (most - 1) = .timedOut → behind.1 = .handle (.error
          (.connection (.timeout k.display (settings.connectTimeout / 1000))))) ∧
        behind.2.1.entryOf? k = none ∧ Untraced k reached.1 behind.2.1) := by
  intro reached behind target most answer
  obtain ⟨owns, htidy⟩ := (Tidy.empty settings).performAll o before s
  have hsettings : reached.1.settings = settings := settings_performAll o settings before s
  have hleaves : LeavesSelected (.acquire k : PoolCall H) := trivial
  constructor
  · intro i h hi hopened hrefused
    obtain ⟨hdials, hresult, hcontents⟩ :=
      htidy.acquire_of_opened o hopen habsent hsettings hi hopened hrefused
    have hentry := fun k' => congrFun (congrArg Contents.entry hcontents) k'
    refine ⟨hdials, hresult, (hentry k).trans (if_pos rfl), fun k' hk => ?_,
      selected_perform o hleaves reached.1 reached.2⟩
    exact (hentry k').trans (if_neg hk)
  · intro hrefused
    obtain ⟨hdials, hresult, huntraced⟩ :=
      htidy.acquire_of_refused o hopen habsent hsettings hrefused
    have hlast : behind.1 = .handle (outcome settings k (answer (most - 1))) := hresult
    refine ⟨hdials, fun e he => ?_, fun htimeout => ?_, ?_, huntraced⟩
    · rw [hlast, he]
      rfl
    · rw [hlast, htimeout]
      rfl
    · rw [huntraced.entries]
      exact habsent

end Acquisitions

/-- Two attempts time out and leave nothing behind; the acquisition that follows begins again and
    succeeds at its second attempt. -/
theorem acquire_exact_flaky :
    let settings : PoolSettings := ⟨10, 10, 1000, 2, 0⟩
    let reached := (performAll flaky (.empty settings) [.acquire (keyOf "a")] 0).2
    let behind := reached.1.perform flaky (.acquire (keyOf "b")) reached.2
    let later := behind.2.1.perform flaky (.acquire (keyOf "b")) behind.2.2
    (dials flaky reached.1 (.acquire (keyOf "b")) reached.2 = List.replicate 2 (keyOf "b") ∧
        behind.1 = .handle (.error (.connection (.timeout (keyOf "b").display 1))) ∧
        Untraced (keyOf "b") reached.1 behind.2.1) ∧
      dials flaky behind.2.1 (.acquire (keyOf "b")) behind.2.2 = List.replicate 2 (keyOf "b") ∧
        later.1 = .handle (.ok 4) ∧ later.2.1.entryOf? (keyOf "b") = some ⟨4, 5⟩ := by
  intro settings reached behind later
  have htarget : reached.1.target (keyOf "b") = keyOf "b" := by decide +kernel
  have hworld : reached.2 = 1 := by decide +kernel
  have htarget' : behind.2.1.target (keyOf "b") = keyOf "b" := by decide +kernel
  have hworld' : behind.2.2 = 3 := by decide +kernel
  have hfails := (acquire_exact flaky settings [.acquire (keyOf "a")] 0 (keyOf "b")
    (by decide +kernel) (by decide +kernel)).2
  have hbehind : (performAll flaky (.empty settings)
      [.acquire (keyOf "a"), .acquire (keyOf "b")] 0).2 = behind.2 :=
    performAll_concat flaky [.acquire (keyOf "a")] _ _ _
  have hsucceeds := (acquire_exact flaky settings [.acquire (keyOf "a"), .acquire (keyOf "b")] 0
    (keyOf "b") (by decide +kernel) (by decide +kernel)).1
  have hreached : (performAll flaky (.empty settings) [.acquire (keyOf "a")] 0).2 = reached := rfl
  -- the world and the target are told before the connector is asked
  have hrefused : ∀ i < 2,
      Refused (answerAt flaky settings (reached.1.target (keyOf "b")) 1 reached.2 i) := by
    rw [htarget, hworld]
    intro i hi
    match i, hi with
    | 0, _ => exact nofun
    | 1, _ => exact nofun
  have htimedOut :
      answerAt flaky settings (reached.1.target (keyOf "b")) 1 reached.2 1 = .timedOut := by
    rw [htarget, hworld]
    rfl
  have hfirst : ∀ i < 1,
      Refused (answerAt flaky settings (behind.2.1.target (keyOf "b")) 1 behind.2.2 i) := by
    rw [htarget', hworld']
    intro i hi
    obtain rfl := Nat.lt_one_iff.mp hi
    exact nofun
  have hsecond :
      answerAt flaky settings (behind.2.1.target (keyOf "b")) 1 behind.2.2 1 = .opened 4 := by
    rw [htarget', hworld']
    rfl
  have hbegun : perform flaky reached.1 (.acquire (keyOf "b")) reached.2 = behind := rfl
  have hended : perform flaky behind.2.1 (.acquire (keyOf "b")) behind.2.2 = later := rfl
  have hseconds : settings.connectTimeout / 1000 = 1 := by decide +kernel
  have hclock : flaky.clock later.2.2 = 5 := by decide +kernel
  rw [hreached, hbegun, hseconds] at hfails
  rw [hbehind, hended] at hsucceeds
  obtain ⟨hdials, -, htimeout, -, huntraced⟩ := hfails hrefused
  obtain ⟨hdials', hopened, hpooled, -⟩ := hsucceeds 1 4 (by decide) hsecond hfirst
  rw [htarget] at hdials
  rw [htarget'] at hdials'
  rw [hclock] at hpooled
  exact ⟨⟨hdials, htimeout htimedOut, huntraced⟩, hdials', hopened, hpooled⟩

end Polyshell.Pool
