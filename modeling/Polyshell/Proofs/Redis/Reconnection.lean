/-
  A `SELECT` and the connections that come after it.

  1. **The line** — `Selects line n` says that a line is a `SELECT` of the database with the number
     `n`.  Its two words are read back (`Selects.tokenize`).

  2. **What is remembered** — once the server has accepted such a line, the pool remembers the
     digits of the number (`selection?_of_accepted`).

  3. **The address** — the address of a connection is made from those digits again; a number that
     the address cannot hold becomes 0 there (`connectionAddress_selected`).

  So whatever comes behind an accepted `SELECT` and selects nothing, every connection that the key is
  given is opened to the database with that number if it is no larger than `maxDatabase`, and to the
  first database otherwise (`address_behind_select`).
-/
import Mathlib
import Polyshell.Proofs.Pool.Targets
import Polyshell.Proofs.Redis.Words
import Polyshell.Proofs.Reporting
import Polyshell.Redis.Address

namespace Polyshell.Redis

open Polyshell.Text
open Polyshell.Mongo (Blanks Solid)

/-! ## Plain words -/

theorem isPlain_of_isAlphanum {c : Char} (h : c.isAlphanum = true) : IsPlain c := by
  have hrange := Mongo.toNat_of_isAlphanum h
  refine ⟨Mongo.not_isBlank_of_isAlphanum h, ?_, ?_⟩
  · rintro rfl
    exact absurd hrange (by decide)
  · rintro rfl
    exact absurd hrange (by decide)

/-- The letters of a word are plain, whatever their case. -/
theorem isPlain_of_toLower {name word : List Char} (h : name.map Char.toLower = word)
    (hword : word.all Char.isLower = true) : ∀ c ∈ name, IsPlain c :=
  fun c hc => isPlain_of_isAlphanum (Mongo.isAlphanum_of_toLower h hword c hc)

theorem isPlain_of_mem_digits {n : Nat} {c : Char} (h : c ∈ Decimal.digits n) : IsPlain c := by
  have hdigit : c.isDigit = true := Nat.isDigit_of_mem_toDigits (by decide) (by decide) h
  exact isPlain_of_isAlphanum (by rw [Char.isAlphanum, hdigit, Bool.or_true])

/-! ## The line -/

/-- A line that selects the database with the number `n`: the name of the command in any case, and
    the number in decimal digits. -/
def Selects (line : String) (n : Nat) : Prop :=
  ∃ before name between behind : List Char,
    line.toList = before ++ (name ++ (between ++ (Decimal.digits n ++ behind))) ∧
    name.map Char.toLower = "select".toList ∧
    Blanks before ∧ Blanks between ∧ between ≠ [] ∧ Blanks behind

/-- Its words are the name of the command and the number. -/
theorem Selects.tokenize {line : String} {n : Nat} (h : Selects line n) :
    ∃ name : String, name.toList.map Char.toLower = "select".toList ∧
      Redis.tokenize line = [name, toString n] := by
  obtain ⟨before, name, between, behind, hline, hname, hbefore, hbetween, hne, hbehind⟩ := h
  have hplain := isPlain_of_toLower hname (by decide)
  have hfilled : name ≠ [] := by
    rintro rfl
    exact absurd hname (by decide)
  have hdivided : ∀ c ∈ (between ++ (Decimal.digits n ++ behind)).head?, isBlank c = true := by
    obtain ⟨c, r, rfl⟩ := List.exists_cons_of_ne_nil hne
    rintro d hd
    obtain rfl : c = d := Option.some.inj hd
    exact hbetween c List.mem_cons_self
  have hended : ∀ c ∈ behind.head?, isBlank c = true := fun c hc =>
    hbehind c (List.mem_of_mem_head? hc)
  have hnothing : tokensFrom none [] false behind = [] := by
    have hskipped := tokensFrom_blanks hbehind []
    rwa [List.append_nil] at hskipped
  refine ⟨String.ofList name, by rw [String.toList_ofList, hname], ?_⟩
  rw [Redis.tokenize, hline, tokensFrom_blanks hbefore, tokensFrom_word hfilled hplain hdivided,
    tokensFrom_blanks hbetween,
    tokensFrom_word (Decimal.digits_ne_nil n) (fun c => isPlain_of_mem_digits) hended, hnothing]
  rw [List.map_cons, List.map_cons, List.map_nil, ← Decimal.toList_toString, String.ofList_toList]

/-- A number is solid text. -/
theorem solid_digits (n : Nat) : Solid (toString n).toList := by
  rw [Decimal.toList_toString]
  exact .of_all (Decimal.digits_ne_nil n) fun c hc => (isPlain_of_mem_digits hc).1

theorem Selects.selectIndex {line : String} {n : Nat} (h : Selects line n) :
    Redis.selectIndex (Redis.tokenize line) = some (toString n) := by
  obtain ⟨name, hname, htokens⟩ := h.tokenize
  rw [htokens]
  have htrimmed : trimmed (toString n) = toString n := by
    rw [trimmed, (solid_digits n).trim, String.ofList_toList]
  simp only [Redis.selectIndex, hname, if_true, htrimmed]

/-! ## What is remembered -/

section Accepted

variable {σ : Type} (k : PoolKey)

/-- A command that succeeds reports the database that its words select, whatever it is answered. -/
theorem execute_reports (line : String) :
    (execute k line).Always (fun _ => True)
      (fun r => ∀ o, r = .ok o → o.changedDatabase = selectedDatabase (tokenize line)) := by
  rw [execute]
  split
  · exact .done fun o ho => by cases ho
  · refine .andThen (.any _) (fun h _ => .bind (.any _) fun answer _ => ?_)
      fun e _ o ho => by cases ho
    split
    · exact .done fun o ho => by cases ho
    · refine .bind (.any _) fun _ _ => .done fun o ho => ?_
      obtain rfl := Except.ok.inj ho
      rfl

/-- Behind a `SELECT` that the server accepted, its number is what the pool remembers. -/
theorem selection?_of_accepted (party : Session.Party σ Nat Request Answer) {line : String}
    {n : Nat} (hline : Selects line n) (p : Pool Nat) (s : σ) {o : Outcome}
    (haccepted : (Session.run party (execute k line) p s).1 = .ok o) :
    (Session.run party (execute k line) p s).2.1.selection? k = some (toString n) := by
  have hreports := (execute_reports k line).hold party.answer (p, s) o haccepted
  rw [selectedDatabase, hline.selectIndex] at hreports
  have hreported := Redis.reported k s party line p
  rw [haccepted] at hreported
  simp only [Reported, hreports, Option.map_some] at hreported
  obtain ⟨d, hd, hbehind⟩ := hreported
  have hlabel : Denotes .keyValue ("[db" ++ toString n ++ "]") (toString n) := rfl
  rw [hbehind, hlabel.unique hd]

end Accepted

/-! ## The address -/

/-- A number in decimal digits is read if it is no larger than is admitted. -/
theorem readNat?_digits (hi n : Nat) :
    Decimal.readNat? hi (Decimal.digits n) = if n ≤ hi then some n else none := by
  have hall := Decimal.allDigits_digits n
  have hsign : ∀ c r, Decimal.digits n = c :: r → c ≠ '-' ∧ c ≠ '+' := by
    intro c r hc
    have hdigit := Decimal.isDigit_of_mem_digits (hc ▸ List.mem_cons_self : c ∈ Decimal.digits n)
    constructor <;> rintro rfl <;> exact absurd hdigit (by decide)
  have hread : Decimal.read? 0 hi (Decimal.digits n) = if n ≤ hi then some (n : Int) else none := by
    unfold Decimal.read?
    split
    next negative body h =>
    split at h
    · exact absurd rfl (hsign _ _ ‹_›).1
    · exact absurd rfl (hsign _ _ ‹_›).2
    · cases h
      by_cases hn : n ≤ hi <;> simp [hall, hn]
  rw [Decimal.readNat?, hread]
  split <;> rfl

/-- The address of a database with a number. -/
def addressIn (k : PoolKey) (n : Nat) : String :=
  "redis://" ++ String.ofList (login k.username k.password) ++ k.address ++ "/" ++ toString n

/-- Addresses of different databases are different. -/
theorem addressIn_inj {k : PoolKey} {n n' : Nat} : addressIn k n = addressIn k n' ↔ n = n' := by
  refine ⟨fun h => ?_, congrArg (addressIn k)⟩
  have hdigits := congrArg String.toList h
  simp only [addressIn, String.toList_append, List.append_cancel_left_eq, Decimal.toList_toString]
    at hdigits
  have hvalue := congrArg Decimal.value hdigits
  rwa [Decimal.value_digits, Decimal.value_digits] at hvalue

/-- A number that was selected is found in the address if it can be. -/
theorem connectionAddress_selected (k : PoolKey) (n : Nat) :
    connectionAddress { k with database := some (toString n) } =
      addressIn k (if n ≤ maxDatabase then n else 0) := by
  have hnumber : databaseNumber { k with database := some (toString n) } =
      if n ≤ maxDatabase then n else 0 := by
    rw [databaseNumber, Option.bind_some, (solid_digits n).trim, Decimal.toList_toString,
      readNat?_digits]
    split <;> rfl
  rw [connectionAddress, hnumber]
  rfl

/-! ## Connections behind a `SELECT` -/

variable {σ τ : Type}

/-- Behind a `SELECT` that the server accepted, and calls that select nothing and give nothing up for
    good, such as sweeps, every connection that is opened for the key is opened with one address:
    that of the selected database, exactly if the address can hold its number. -/
theorem address_behind_select (party : Session.Party σ Nat Request Answer) (k : PoolKey)
    {line : String} {n : Nat} (hline : Selects line n) (p : Pool Nat) (s : σ) {out : Outcome}
    (haccepted : (Session.run party (execute k line) p s).1 = .ok out)
    (o : Outside τ Nat) {calls : List (PoolCall Nat)} (hcalls : ∀ c ∈ calls, Pool.LeavesSelected c)
    (u v : τ) {k' target : PoolKey}
    (hconnecting : .connecting k' target ∈ Pool.happens o
      (Pool.performAll o (Session.run party (execute k line) p s).2.1 calls u).2.1
      (.acquire k) v) :
    k' = k ∧ connectionAddress target = addressIn k (if n ≤ maxDatabase then n else 0) ∧
      (connectionAddress target = addressIn k n ↔ n ≤ maxDatabase) := by
  obtain ⟨hkey, htarget⟩ := Pool.target_of_connecting o v hconnecting
  have hremembered := selection?_of_accepted k party hline p s haccepted
  rw [← Pool.selection?_congr (Pool.selected_performAll o hcalls _ u)] at hremembered
  have haddress : connectionAddress target = addressIn k (if n ≤ maxDatabase then n else 0) := by
    rw [htarget, Pool.target_of_selection? hremembered, connectionAddress_selected]
  refine ⟨hkey, haddress, ?_⟩
  rw [haddress, addressIn_inj]
  by_cases hn : n ≤ maxDatabase
  · simp only [hn, if_true]
  · simp only [hn, if_false, iff_false]
    rintro rfl
    exact hn (Nat.zero_le _)

/-- A session is in the third database, and its connection is swept away. -/
theorem address_behind_select_swept :
    ∃ (party : Session.Party Unit Nat Request Answer) (k target : PoolKey)
      (selected : Except ShellError Outcome × Pool Nat × Unit) (swept : Pool Nat),
      selected = Session.run party (execute k " sElEcT 3") (.empty default) () ∧
      selected.1.toOption.map Outcome.changedDatabase = some (some "[db3]") ∧
      swept = (Pool.performAll party.toOutside selected.2.1 [.sweepAt 1] ()).2.1 ∧
      swept.live? k = none ∧
      .connecting k target ∈ Pool.happens party.toOutside swept (.acquire k) () ∧
      connectionAddress target = addressIn k 3 := by
  let party : Session.Party Unit Nat Request Answer :=
    ⟨⟨fun _ => 0, fun _ s => (.opened 7, s), fun _ s => s, fun _ s => s⟩, fun _ _ s => (.ok .okay, s)⟩
  let k : PoolKey := ⟨.keyValue, "cache", 6379, none, none, some "0", some "1"⟩
  have hline : Selects " sElEcT 3" 3 :=
    ⟨[' '], "sElEcT".toList, [' '], [], by decide, by decide, by decide, by decide, by decide,
      by decide⟩
  obtain ⟨selected, hselected⟩ :
      ∃ x, x = Session.run party (execute k " sElEcT 3") (.empty default) () := ⟨_, rfl⟩
  obtain ⟨swept, hswept⟩ :
      ∃ x, x = (Pool.performAll party.toOutside selected.2.1 [.sweepAt 1] ()).2.1 := ⟨_, rfl⟩
  have hreported : selected.1.toOption.map Outcome.changedDatabase = some (some "[db3]") := by
    rw [hselected]
    decide +kernel
  have hlive : swept.live? k = none := by
    rw [hswept, hselected]
    decide +kernel
  have hdials : (Pool.happens party.toOutside swept (.acquire k) ()).any Pool.Event.dials = true := by
    rw [hswept, hselected]
    decide +kernel
  have hconnecting := Pool.connecting_of_dials party.toOutside () hdials
  obtain ⟨out, hout⟩ : ∃ out, selected.1 = .ok out := by
    cases hoc : selected.1 with
    | ok out => exact ⟨out, rfl⟩
    | error e =>
      rw [hoc] at hreported
      cases hreported
  have hleaves : ∀ c ∈ [(.sweepAt 1 : PoolCall Nat)], Pool.LeavesSelected c :=
    List.forall_mem_singleton.mpr trivial
  have haddress : connectionAddress (swept.target k) = addressIn k 3 := by
    rw [hselected] at hout
    rw [hswept, hselected] at hconnecting ⊢
    exact (address_behind_select party k hline (.empty default) () hout party.toOutside hleaves () ()
      hconnecting).2.1
  exact ⟨party, k, _, selected, swept, hselected, hreported, hswept, hlive, hconnecting, haddress⟩

/-- A database whose number the address cannot hold: the server accepted it and the prompt shows it,
    but behind a sweep the session is in the first one. -/
theorem address_behind_select_beyond :
    ∃ (party : Session.Party Unit Nat Request Answer) (k target : PoolKey)
      (selected : Except ShellError Outcome × Pool Nat × Unit) (swept : Pool Nat),
      Selects "SELECT 65536" 65536 ∧
      selected = Session.run party (execute k "SELECT 65536") (.empty default) () ∧
      selected.1.toOption.map Outcome.changedDatabase = some (some "[db65536]") ∧
      swept = (Pool.performAll party.toOutside selected.2.1 [.sweepAt 1] ()).2.1 ∧
      .connecting k target ∈ Pool.happens party.toOutside swept (.acquire k) () ∧
      connectionAddress target = addressIn k 0 ∧ connectionAddress target ≠ addressIn k 65536 := by
  let party : Session.Party Unit Nat Request Answer :=
    ⟨⟨fun _ => 0, fun _ s => (.opened 7, s), fun _ s => s, fun _ s => s⟩, fun _ _ s => (.ok .okay, s)⟩
  let k : PoolKey := ⟨.keyValue, "cache", 6379, none, none, some "0", some "1"⟩
  have hline : Selects "SELECT 65536" 65536 :=
    ⟨[], "SELECT".toList, [' '], [], by decide, by decide, by decide, by decide, by decide,
      by decide⟩
  obtain ⟨selected, hselected⟩ :
      ∃ x, x = Session.run party (execute k "SELECT 65536") (.empty default) () := ⟨_, rfl⟩
  obtain ⟨swept, hswept⟩ :
      ∃ x, x = (Pool.performAll party.toOutside selected.2.1 [.sweepAt 1] ()).2.1 := ⟨_, rfl⟩
  have hreported : selected.1.toOption.map Outcome.changedDatabase = some (some "[db65536]") := by
    rw [hselected]
    decide +kernel
  have hdials : (Pool.happens party.toOutside swept (.acquire k) ()).any Pool.Event.dials = true := by
    rw [hswept, hselected]
    decide +kernel
  have haddress : connectionAddress (swept.target k) = addressIn k 0 ∧
      connectionAddress (swept.target k) ≠ addressIn k 65536 := by
    rw [hswept, hselected]
    decide +kernel
  exact ⟨party, k, _, selected, swept, hline, hselected, hreported, hswept,
    Pool.connecting_of_dials party.toOutside () hdials, haddress⟩

end Polyshell.Redis
