/-
  What commands of the document shell ask, and whom.

  1. **Work with servers** — every request of a query, an operation or an administrative command goes
     over the connection that it was given, and none of them asks the pool for anything
     (`Operation.run_staysOn`, `Query.fetch_staysOn`, `Admin.run_staysOn`).  There is one lemma for
     each way in which requests are put together, and the commands are cases.

  2. **Commands** — `target? ambient text` is the database that a command switches to, if it switches at
     all.  A whole command acquires the connection of its key, sends requests, and selects and
     replaces only to switch to that database (`execute_always`).

  3. **One after another** — `Turn` is a command or a pool call; `Turn.all` holds several of them in a
     row.
-/
import Polyshell.Proofs.Dialogue
import Polyshell.Mongo.Session

namespace Polyshell.Mongo

/-! ## Requests over one connection -/

/-- A request over the connection `c`. -/
def Over (c : Connection) : Exchange Connection Request → Prop
  | .server c' _ => c' = c
  | .pool _ => False

/-- Work that sends requests over `c` and does nothing else. -/
def StaysOn {α : Type} (c : Connection) (w : Session Connection Request Answer α) : Prop :=
  w.Always (Over c) fun _ => True

namespace StaysOn

variable {α β : Type} {c : Connection}

theorem done {x : α} : StaysOn c (.done x) := trivial

theorem bind {w : Session Connection Request Answer α} {f : α → Session Connection Request Answer β}
    (h : StaysOn c w) (hf : ∀ x, StaysOn c (f x)) : StaysOn c (w.bind f) :=
  Dialogue.Always.bind h fun x _ => hf x

theorem andThen {w : Work α} {f : α → Work β} (h : StaysOn c w) (hf : ∀ x, StaysOn c (f x)) :
    StaysOn c (w.andThen f) :=
  Dialogue.Always.andThen h (fun x _ => hf x) fun _ _ => trivial

end StaysOn

section Asking

variable {α : Type} (c : Connection)

theorem ask_staysOn (a : Addressee) (d : Document) : StaysOn c (ask c a d) := by
  have hsend : StaysOn c (Session.send c ⟨a, d⟩ : Session Connection Request Answer Answer) :=
    Dialogue.Always.question rfl
  exact hsend.bind fun _ => .done

theorem write_staysOn (fault : Document → Option DocumentFault) (d : Document) :
    StaysOn c (write c fault d) :=
  (ask_staysOn c _ d).andThen fun _ => .done

theorem askFor_staysOn (a : Addressee) (d : Document)
    (read : Document → Except DocumentFault α) : StaysOn c (askFor c a d read) :=
  (ask_staysOn c a d).andThen fun _ => .done

theorem following_staysOn (fuel : Nat) (b : Batch) : StaysOn c (b.following c fuel) := by
  induction fuel generalizing b with
  | zero => exact .done
  | succ fuel ih =>
    rw [Batch.following]
    split
    · exact .done
    · exact (askFor_staysOn c _ _ _).andThen fun _ => (ih _).andThen fun _ => .done

theorem firstOf_staysOn (fuel : Nat) (b : Batch) : StaysOn c (b.firstOf c fuel) := by
  induction fuel generalizing b with
  | zero => exact .done
  | succ fuel ih =>
    rw [Batch.firstOf]
    split
    · exact .done
    · exact (askFor_staysOn c _ _ _).andThen fun _ => ih _

theorem documents_staysOn (a : Addressee) (d : Document) : StaysOn c (documents c a d) :=
  (askFor_staysOn c a d _).andThen fun b => following_staysOn c _ b

theorem firstDocument_staysOn (a : Addressee) (d : Document) : StaysOn c (firstDocument c a d) :=
  (askFor_staysOn c a d _).andThen fun b => firstOf_staysOn c _ b

theorem countDocuments_staysOn (collection : String) (filter : Document) (skip limit : Option Nat) :
    StaysOn c (countDocuments c collection filter skip limit) :=
  (askFor_staysOn c _ _ _).andThen fun _ => .done

theorem distinctValues_staysOn (collection field : String) (filter : Document) :
    StaysOn c (distinctValues c collection field filter) :=
  askFor_staysOn c _ _ _

/-! ### References -/

theorem resolve_staysOn (p : Populate) (model : String) (reference : Bson) :
    StaysOn c (p.resolve c model reference) := by
  cases reference with
  | arr ids => exact (documents_staysOn c _ _).andThen fun _ => .done
  | _ => exact (firstDocument_staysOn c _ _).andThen fun _ => .done

theorem inDocument_staysOn (p : Populate) (model : String) (d : Document) :
    StaysOn c (p.inDocument c model d) := by
  rw [Populate.inDocument]
  split
  · exact .done
  · exact .done
  · exact (resolve_staysOn c p model _).andThen fun _ => .done

theorem inDocuments_staysOn (p : Populate) (model : String) (ds : List Document) :
    StaysOn c (p.inDocuments c model ds) := by
  induction ds with
  | nil => exact .done
  | cons d ds ih =>
    exact (inDocument_staysOn c p model d).andThen fun _ => ih.andThen fun _ => .done

theorem apply_staysOn (p : Populate) (ds : List Document) : StaysOn c (p.apply c ds) := by
  rw [Populate.apply]
  split
  · exact .done
  · exact inDocuments_staysOn c p _ ds

theorem populateAll_staysOn (ps : List Populate) (ds : List Document) :
    StaysOn c (populateAll c ps ds) := by
  induction ps generalizing ds with
  | nil => exact .done
  | cons p ps ih => exact (apply_staysOn c p ds).andThen fun ds' => ih ds'

/-! ### Commands -/

theorem Query.fetch_staysOn (collection : String) (q : Query) :
    StaysOn c (q.fetch c collection) := by
  rw [Query.fetch]
  split
  · exact (countDocuments_staysOn c _ _ _ _).andThen fun _ => .done
  · exact (distinctValues_staysOn c _ _ _).andThen fun _ => .done
  · split
    · refine (firstDocument_staysOn c _ _).andThen fun d => ?_
      cases d with
      | none => exact .done
      | some d => exact (populateAll_staysOn c _ _).andThen fun _ => .done
    · exact (documents_staysOn c _ _).andThen fun ds =>
        (populateAll_staysOn c _ ds).andThen fun _ => .done

theorem insert_staysOn (collection : String) (fault : Document → Option DocumentFault)
    (ds : List Document) (result : List Bson → Bson) :
    StaysOn c (Operation.insert c collection fault ds result) :=
  (write_staysOn c _ _).andThen fun _ => .done

theorem change_staysOn (fault : Option DocumentFault) (command : Document) :
    StaysOn c (change c fault command) := by
  cases fault with
  | none => exact (write_staysOn c _ _).andThen fun _ => .done
  | some f => exact .done

theorem Operation.run_staysOn (collection : String) (newId : NewIds) (o : Operation) :
    StaysOn c (o.run c collection newId) := by
  cases o with
  | insertOne d =>
    rw [Operation.run]
    exact insert_staysOn c _ _ _ _
  | insertMany ds =>
    cases ds with
    | nil => exact .done
    | cons d ds =>
      rw [Operation.run]
      · exact insert_staysOn c _ _ _ _
      · exact List.cons_ne_nil d ds
  | update filter u o many => exact change_staysOn c _ _
  | replace filter replacement upsert => exact change_staysOn c _ _
  | delete filter many => exact (write_staysOn c _ _).andThen fun _ => .done
  | modify filter m o =>
    rw [Operation.run]
    split
    · exact .done
    · exact askFor_staysOn c _ _ _
  | aggregate pipeline => exact (documents_staysOn c _ _).andThen fun _ => .done
  | count filter => exact (countDocuments_staysOn c _ _ _ _).andThen fun _ => .done
  | estimatedCount => exact (askFor_staysOn c _ _ _).bind fun _ => .done
  | distinct field filter => exact (distinctValues_staysOn c _ _ _).andThen fun _ => .done
  | createIndex i => exact (write_staysOn c _ _).andThen fun _ => .done
  | dropIndex index => exact (ask_staysOn c _ _).andThen fun _ => .done
  | listIndexes => exact (documents_staysOn c _ _).andThen fun _ => .done
  | drop => exact (write_staysOn c _ _).bind fun _ => .done
  | rename target dropTarget => exact (ask_staysOn c _ _).andThen fun _ => .done
  | stats => exact (ask_staysOn c _ _).andThen fun _ => .done

theorem Admin.run_staysOn (a : Admin) : StaysOn c (a.run c) := by
  cases a with
  | databases => exact askFor_staysOn c _ _ _
  | collections => exact (documents_staysOn c _ _).andThen fun _ => .done
  | users => exact askFor_staysOn c _ _ _
  | roles => exact askFor_staysOn c _ _ _
  | ownName => exact .done
  | serverVersion => exact askFor_staysOn c _ _ _
  | dropDatabase => exact (write_staysOn c _ _).andThen fun _ => .done
  | command addressee d =>
    cases d with
    | nil => exact .done
    | cons x d => exact (ask_staysOn c _ _).andThen fun _ => .done

end Asking

/-! ## Whole commands -/

/-- The database that a command switches to. -/
def target? (ambient : Ambient) (text : String) : Option String :=
  match Command.parse ambient text with
  | .error _ => none
  | .ok command =>
    match Action.ofCommand command with
    | .ok (.use d) => some d
    | _ => none

/-- An outcome that reports the change to a database, or no change. -/
def Reports (target : Option String) (r : Except ShellError Outcome) : Prop :=
  ∀ o, r = .ok o → o.changedDatabase = target

/-- What answers are shown for changes no database. -/
theorem answered_always {c : Connection} {w : Work Bson} (h : StaysOn c w) :
    (answered w).Always (Over c) (Reports none) := by
  refine Dialogue.Always.bind h fun r _ => ?_
  cases r with
  | ok v =>
    rintro o ⟨⟩
    rfl
  | error f =>
    rintro o ⟨⟩

/-- A command is refused at once, or acquires the connection of its key.  Then it switches to another
    database, or does no more than to send requests over that connection. -/
theorem execute_cases (ambient : Ambient) (k : PoolKey) (text : String) :
    (∃ e, execute ambient k text = .done (.error e)) ∨
    ∃ command work, Command.parse ambient text = .ok command ∧
      execute ambient k text = (Session.acquire k).andThen work ∧
      ((∃ d, target? ambient text = some d ∧ ∀ c, work c = switch k c d) ∨
        target? ambient text = none ∧ ∀ c, (work c).Always (Over c) (Reports none)) := by
  rw [execute, target?]
  cases Command.parse ambient text with
  | error e => exact Or.inl ⟨_, rfl⟩
  | ok command =>
    refine Or.inr ⟨command, _, rfl, rfl, ?_⟩
    dsimp only
    cases Action.ofCommand command with
    | error e =>
      refine Or.inr ⟨rfl, fun c => ?_⟩
      rintro o ⟨⟩
    | ok a =>
      cases a with
      | use d => exact Or.inl ⟨d, rfl, fun _ => rfl⟩
      | admin a => exact Or.inr ⟨rfl, fun c => answered_always (a.run_staysOn c)⟩
      | query collection q =>
        exact Or.inr ⟨rfl, fun c => answered_always (q.fetch_staysOn c collection)⟩
      | operation collection o =>
        exact Or.inr ⟨rfl, fun c => answered_always (o.run_staysOn c collection _)⟩

/-- What a command asks that switches to `target`, or does not switch. -/
def Asks (k : PoolKey) (target : Option String) : Exchange Connection Request → Prop
  | .server _ _ => True
  | .pool (.acquire k') => k' = k
  | .pool (.select k' d) => k' = k ∧ target = some d
  | .pool (.replace k' c) => k' = k ∧ target = some c.database
  | .pool _ => False

theorem switch_always {k : PoolKey} {c : Connection} {d : String}
    {P : Exchange Connection Request → Prop} (hselect : P (.pool (.select k d)))
    (hreplace : P (.pool (.replace k (c.within d)))) :
    (switch k c d).Always P (Reports (some d)) := by
  have hselected : (Session.select k d : Session Connection Request Answer Unit).Always P
      fun _ => True := Dialogue.Always.bind (.question hselect) fun _ _ => trivial
  have hreplaced : (Session.replace k (c.within d) :
      Session Connection Request Answer (Except ShellError Connection)).Always P fun _ => True :=
    Dialogue.Always.bind (.question hreplace) fun _ _ => trivial
  refine hselected.bind fun _ _ => hreplaced.andThen (fun _ _ => ?_) fun _ _ => ?_
  · rintro o ⟨⟩
    rfl
  · rintro o ⟨⟩

/-- A command asks the pool for the connection of its key, and selects and replaces only to switch to
    the database that it reports. -/
theorem execute_always (ambient : Ambient) (k : PoolKey) (text : String) :
    (execute ambient k text).Always (Asks k (target? ambient text))
      (Reports (target? ambient text)) := by
  have hacquire : (Session.acquire k :
      Session Connection Request Answer (Except ShellError Connection)).Always
      (Asks k (target? ambient text)) fun _ => True :=
    Dialogue.Always.bind (.question rfl) fun _ _ => trivial
  rcases execute_cases ambient k text with ⟨e, he⟩ | ⟨-, work, -, he, hwork⟩
  · rw [he]
    rintro o ⟨⟩
  · rw [he]
    refine hacquire.andThen (fun c _ => ?_) fun _ _ => ?_
    · rcases hwork with ⟨d, ht, hd⟩ | ⟨ht, hd⟩
      · rw [ht, hd]
        exact switch_always ⟨rfl, rfl⟩ ⟨rfl, rfl⟩
      · rw [ht]
        refine (hd c).mono (fun q hq => ?_) fun _ hr => hr
        cases q with
        | pool call => exact hq.elim
        | server c' q => trivial
    · rintro o ⟨⟩

/-! ## One after another -/

/-- A command, or a call of the pool from somewhere else. -/
inductive Turn where
  | command (ambient : Ambient) (k : PoolKey) (text : String)
  | call (c : PoolCall Connection)

namespace Turn

/-- A turn as a session; its outcome is that of the command. -/
def session : Turn → Session Connection Request Answer (Option (Except ShellError Outcome))
  | .command ambient k text => (execute ambient k text).bind fun r => .done (some r)
  | .call c => (Session.call c).bind fun _ => .done none

/-- Several turns in a row. -/
def all : List Turn → Session Connection Request Answer Unit
  | [] => .done ()
  | t :: ts => t.session.bind fun _ => all ts

theorem all_always {P : Exchange Connection Request → Prop} {ts : List Turn}
    (h : ∀ t ∈ ts, t.session.Always P fun _ => True) : (all ts).Always P fun _ => True := by
  induction ts with
  | nil => trivial
  | cons t ts ih =>
    obtain ⟨ht, hts⟩ := List.forall_mem_cons.mp h
    exact ht.bind fun _ _ => ih hts

end Turn
end Polyshell.Mongo
