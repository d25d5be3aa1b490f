/-
  What a command that is refused leaves behind.

  1. **Refusals** — a command is refused when it cannot be read, or when it asks for something that
     is unknown here (`ShellError.IsRefusal`).  What servers and connections answer is no refusal.

  2. **Stages** — a command is read, then the connection of its key is acquired, then its arguments
     are looked at, and only then does it begin to work (`execute_stages`).  Its work never ends in a
     refusal: what is sent comes back with an error of the server (`answered_always_reached`), and a
     switch cannot fail behind an acquisition (`run_switch`).

  3. **No effect** — so a refused command has asked for nothing but its connection; what the pool
     remembers and what is live in it is as it was (`no_effect_of_refusal`).
-/
import Polyshell.Proofs.Mongo.Resumption
import Polyshell.Proofs.Session

namespace Polyshell

/-- An error that is found in the command itself. -/
def ShellError.IsRefusal : ShellError → Prop
  | .parse _ => True
  | .unsupported _ => True
  | _ => False

instance (e : ShellError) : Decidable e.IsRefusal :=
  match e with
  | .parse _ => .isTrue trivial
  | .unsupported _ => .isTrue trivial
  | .connection _ | .server _ | .config _ | .io _ | .generic _ => .isFalse id

namespace Mongo

variable {σ : Type}

/-! ## Stages -/

/-- A result that is no refusal. -/
def Reached (r : Except ShellError Outcome) : Prop := ∀ e, r = .error e → ¬e.IsRefusal

/-- What comes back from a server is no refusal. -/
theorem answered_always_reached {c : Connection} {w : Work Bson} (h : StaysOn c w) :
    (answered w).Always (Over c) Reached := by
  refine Dialogue.Always.bind h fun r _ => ?_
  cases r with
  | ok v =>
    rintro e ⟨⟩
  | error f =>
    rintro e ⟨⟩ hrefusal
    exact hrefusal

/-- A command is refused before it asks for anything; or it acquires the connection of its key, and
    then is refused, or switches, or works with servers. -/
theorem execute_stages (ambient : Ambient) (k : PoolKey) (text : String) :
    (∃ e, Command.parse ambient text = .error e ∧
      execute ambient k text = .done (.error (.parse e))) ∨
    ∃ command work, Command.parse ambient text = .ok command ∧
      execute ambient k text = (Session.acquire k).andThen work ∧
      ((∃ e, ∀ c, work c = .done (.error e)) ∨ (∃ d, ∀ c, work c = switch k c d) ∨
        ∀ c, (work c).Always (Over c) Reached) := by
  rw [execute]
  cases Command.parse ambient text with
  | error e => exact Or.inl ⟨e, rfl, rfl⟩
  | ok command =>
    refine Or.inr ⟨command, _, rfl, rfl, ?_⟩
    cases Action.ofCommand command with
    | error e => exact Or.inl ⟨e, fun _ => rfl⟩
    | ok a =>
      right
      cases a with
      | use d => exact Or.inl ⟨d, fun _ => rfl⟩
      | admin a => exact Or.inr fun c => answered_always_reached (a.run_staysOn c)
      | query collection q =>
        exact Or.inr fun c => answered_always_reached (q.fetch_staysOn c collection)
      | operation collection o =>
        exact Or.inr fun c => answered_always_reached (o.run_staysOn c collection _)

section Held

variable (party : Session.Party σ Connection Request Answer)

/-- A switch succeeds where the connection is ready, and the pool remembers the database. -/
theorem run_switch {p : Pool Connection} {k : PoolKey} {c : Connection} (hready : p.IsReady k c)
    (d : String) (s : σ) :
    (Session.run party (switch k c d) p s).1 = .ok ⟨"switched to db " ++ d, some d⟩ ∧
      (Session.run party (switch k c d) p s).2.1.selection? k = some d := by
  have hselected : (p.select k d).IsReady k c := hready
  have hreplaced := Pool.perform_replace_ready party.toOutside (p.select k d) k s hselected
    (c.within d)
  have hleaves : Pool.LeavesSelected (.replace k (c.within d) : PoolCall Connection) := trivial
  have hkept := Pool.selected_perform party.toOutside hleaves (p.select k d) s
  rw [switch, Session.run_bind, Session.run_select, Dialogue.andThen, Session.run_bind,
    Session.run_replace]
  dsimp only
  rw [hreplaced]
  refine ⟨rfl, ?_⟩
  show ((p.select k d).perform party.toOutside (.replace k (c.within d)) s).2.1.selection? k = _
  rw [Pool.selection?, hkept, ← Pool.selection?, Pool.selection?_select]

/-! ## No effect -/

/-- A command that is refused has asked for nothing but the connection of its key, and for that only
    if it could be read.  What the pool remembers is as it was, and every key that was live has the
    handle that it had. -/
theorem no_effect_of_refusal (ambient : Ambient) (k : PoolKey) (text : String)
    (p : Pool Connection) (s : σ) {e : ShellError}
    (hrun : (Session.run party (execute ambient k text) p s).1 = .error e) (he : e.IsRefusal) :
    (∀ q ∈ (execute ambient k text).asked party.answer (p, s), q = .pool (.acquire k)) ∧
    (Session.run party (execute ambient k text) p s).2.1.selected = p.selected ∧
    (∀ k' c, p.live? k' = some c →
      (Session.run party (execute ambient k text) p s).2.1.live? k' = some c) ∧
    ∀ fault, Command.parse ambient text = .error fault →
      (execute ambient k text).asked party.answer (p, s) = [] ∧
        (Session.run party (execute ambient k text) p s).2 = (p, s) := by
  rcases execute_stages ambient k text with
    ⟨fault, -, hexec⟩ | ⟨command, work, hparse, hexec, hwork⟩
  · rw [hexec]
    exact ⟨nofun, rfl, fun _ _ hc => hc, fun _ _ => ⟨rfl, rfl⟩⟩
  · have hread : ∀ {P : ParseError → Prop} fault, Command.parse ambient text = .error fault →
        P fault := by
      intro P fault hfault
      cases hparse.symm.trans hfault
    rw [hexec] at hrun ⊢
    obtain ⟨p', s', hselected, hlive, ⟨e', hrun', hasked⟩ | ⟨c, hready, hrun', hasked⟩⟩ :=
      Session.run_acquire party k p s work
    · rw [hrun', hasked]
      exact ⟨fun q hq => List.mem_singleton.mp hq, hselected, hlive, hread⟩
    · rw [hrun'] at hrun ⊢
      rw [hasked]
      rcases hwork with ⟨e', hwork⟩ | ⟨d, hwork⟩ | hwork
      · rw [hwork c]
        exact ⟨fun q hq => List.mem_singleton.mp hq, hselected, hlive, hread⟩
      · rw [hwork c, (run_switch party hready d s').1] at hrun
        cases hrun
      · exact absurd he ((hwork c).hold party.answer (p', s') e hrun)

/-- A session that is in `shop`, and whose query is refused for its last call. -/
theorem no_effect_of_refusal_skip :
    ∃ (ambient : Ambient) (k : PoolKey) (party : Session.Party Unit Connection Request Answer)
      (p : Pool Connection) (e : ShellError),
      p.selection? k = some "shop" ∧ p.live? k = some ⟨7, "shop"⟩ ∧
      (Session.run party (execute ambient k "db.items.find({}).skip(-1)") p ()).1 = .error e ∧
      e.IsRefusal ∧ e.message = "Invalid argument for skip: must not be negative" ∧
      requestsIn ((execute ambient k "db.items.find({}).skip(-1)").asked party.answer (p, ())) = [] ∧
      (Session.run party (execute ambient k "db.items.find({}).skip(-1)") p ()).2.1.selection? k =
        some "shop" ∧
      (Session.run party (execute ambient k "db.items.find({}).skip(-1)") p ()).2.1.live? k =
        some ⟨7, "shop"⟩ := by
  let ambient : Ambient := ⟨0, fun _ => default⟩
  let k : PoolKey := ⟨.document, "localhost", 27017, none, none, none, some "1"⟩
  let party : Session.Party Unit Connection Request Answer :=
    ⟨⟨fun _ => 0, fun _ s => (.opened ⟨7, "test"⟩, s), fun _ s => s, fun _ s => s⟩,
      fun _ _ s => (.ok [], s)⟩
  let p : Pool Connection :=
    (Session.run party (execute ambient k "use shop") (.empty default) ()).2.1
  have hshop : p.selection? k = some "shop" ∧ p.live? k = some ⟨7, "shop"⟩ := by decide +kernel
  have hrefused : (match
        (Session.run party (execute ambient k "db.items.find({}).skip(-1)") p ()).1 with
      | .error e =>
        decide (e.IsRefusal ∧ e.message = "Invalid argument for skip: must not be negative")
      | .ok _ => false) = true := by decide +kernel
  obtain ⟨e, hrun, he, hmessage⟩ : ∃ e,
      (Session.run party (execute ambient k "db.items.find({}).skip(-1)") p ()).1 = .error e ∧
      e.IsRefusal ∧ e.message = "Invalid argument for skip: must not be negative" := by
    split at hrefused
    · next e he => exact ⟨e, he, of_decide_eq_true hrefused⟩
    · cases hrefused
  obtain ⟨hasked, hselected, hlive, -⟩ :=
    no_effect_of_refusal party ambient k "db.items.find({}).skip(-1)" p () hrun he
  refine ⟨ambient, k, party, p, e, hshop.1, hshop.2, hrun, he, hmessage, ?_, ?_, hlive k _ hshop.2⟩
  · refine List.filterMap_eq_nil_iff.mpr fun q hq => ?_
    rw [hasked q hq]
  · rw [Pool.selection?, hselected]
    exact hshop.1

end Held

end Mongo
end Polyshell
