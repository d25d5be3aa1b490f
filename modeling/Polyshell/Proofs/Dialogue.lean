/-
  What a dialogue may ask, and what it may come to.

  1. **A whole dialogue** — `Always P R d`: every question that `d` can come to ask satisfies `P`, and
     every outcome that it can have satisfies `R`, whatever is answered.  It is proved along the way
     in which a dialogue is put together (`Always.bind`, `Always.andThen`).

  2. **One conversation** — `asked answer d s` lists the questions of one conversation.  Those of two
     dialogues held one after the other stand one behind the other (`asked_bind`), and all of them
     satisfy what the dialogue always keeps to (`Always.asked`).
-/
import Polyshell.Dialogue

namespace Polyshell.Dialogue

variable {Q : Type} {A : Q → Type} {α β ε σ : Type}

/-! ## Whatever is answered -/

/-- Every question that can be asked satisfies `P`, and every outcome `R`. -/
def Always (P : Q → Prop) (R : α → Prop) : Dialogue Q A α → Prop
  | .done x => R x
  | .ask q next => P q ∧ ∀ a, Always P R (next a)

namespace Always

variable {P P' : Q → Prop} {R R' : α → Prop} {S : β → Prop}

theorem done {x : α} (h : R x) : Always P R (.done x : Dialogue Q A α) := h

theorem question {q : Q} (h : P q) : Always P (fun _ => True) (question q : Dialogue Q A (A q)) :=
  ⟨h, fun _ => trivial⟩

theorem any (d : Dialogue Q A α) : Always (fun _ => True) (fun _ => True) d := by
  induction d with
  | done x => trivial
  | ask q next ih => exact ⟨trivial, ih⟩

theorem mono {d : Dialogue Q A α} (h : Always P R d) (hP : ∀ q, P q → P' q)
    (hR : ∀ x, R x → R' x) : Always P' R' d := by
  induction d with
  | done x => exact hR x h
  | ask q next ih => exact ⟨hP q h.1, fun a => ih a (h.2 a)⟩

theorem bind {d : Dialogue Q A α} {f : α → Dialogue Q A β} (h : Always P R d)
    (hf : ∀ x, R x → Always P S (f x)) : Always P S (d.bind f) := by
  induction d with
  | done x => exact hf x h
  | ask q next ih => exact ⟨h.1, fun a => ih a (h.2 a)⟩

/-- What comes behind an outcome need only be looked at where the outcome is no failure. -/
theorem andThen {R : Except ε α → Prop} {S : Except ε β → Prop}
    {d : Dialogue Q A (Except ε α)} {f : α → Dialogue Q A (Except ε β)} (h : Always P R d)
    (hf : ∀ x, R (.ok x) → Always P S (f x)) (he : ∀ e, R (.error e) → S (.error e)) :
    Always P S (d.andThen f) := by
  refine h.bind fun r hr => ?_
  cases r with
  | ok x => exact hf x hr
  | error e => exact he e hr

/-- The outcome of a conversation is one that the dialogue can have. -/
theorem hold {d : Dialogue Q A α} (h : Always P R d) (answer : (q : Q) → σ → A q × σ) (s : σ) :
    R (d.hold answer s).1 := by
  induction d generalizing s with
  | done x => exact h
  | ask q next ih => exact ih _ (h.2 _) _

/-- What no answer to such a question changes, the whole conversation leaves as it was. -/
theorem hold_unchanged {τ : Type} {d : Dialogue Q A α} (h : Always P R d)
    (answer : (q : Q) → σ → A q × σ) (part : σ → τ)
    (hP : ∀ q s, P q → part (answer q s).2 = part s) (s : σ) :
    part (d.hold answer s).2 = part s := by
  induction d generalizing s with
  | done x => rfl
  | ask q next ih => exact (ih _ (h.2 _) _).trans (hP q s h.1)

end Always

/-! ## One conversation -/

/-- The questions of a conversation, in order. -/
def asked (answer : (q : Q) → σ → A q × σ) : Dialogue Q A α → σ → List Q
  | .done _, _ => []
  | .ask q next, s => q :: asked answer (next (answer q s).1) (answer q s).2

theorem asked_bind (answer : (q : Q) → σ → A q × σ) (d : Dialogue Q A α)
    (f : α → Dialogue Q A β) (s : σ) : asked answer (d.bind f) s =
      asked answer d s ++ asked answer (f (d.hold answer s).1) (d.hold answer s).2 := by
  induction d generalizing s with
  | done x => rfl
  | ask q next ih => exact congrArg (q :: ·) (ih _ _)

theorem Always.asked {P : Q → Prop} {R : α → Prop} {answer : (q : Q) → σ → A q × σ}
    {d : Dialogue Q A α} (h : Always P R d) (s : σ) : ∀ q ∈ d.asked answer s, P q := by
  induction d generalizing s with
  | done x => exact fun q hq => absurd hq List.not_mem_nil
  | ask q next ih => exact List.forall_mem_cons.mpr ⟨h.1, ih _ (h.2 _) _⟩

end Polyshell.Dialogue
