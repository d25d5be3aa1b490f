/-
  Work that talks to something else while it goes on.

  A dialogue either has its outcome, or asks a question and goes on with any answer that may come.
  Written this way, work does not say who answers, or what happens between two of its questions; the
  same dialogue can be held with nothing else going on, or next to others.
-/

namespace Polyshell

/-- Work with an outcome in `α` that asks questions in `Q`; a question `q` is answered in `A q`. -/
inductive Dialogue (Q : Type) (A : Q → Type) (α : Type) where
  | done (x : α)
  | ask (q : Q) (next : A q → Dialogue Q A α)

namespace Dialogue

variable {Q : Type} {A : Q → Type} {α β : Type}

/-- Goes on with the outcome. -/
def bind : Dialogue Q A α → (α → Dialogue Q A β) → Dialogue Q A β
  | .done x, f => f x
  | .ask q next, f => .ask q fun a => (next a).bind f

/-- A single question, whose answer is the outcome. -/
def question (q : Q) : Dialogue Q A (A q) := .ask q .done

instance : Monad (Dialogue Q A) where
  pure := .done
  bind := .bind

/-- The outcome when each question is answered from a state, which the answer changes. -/
def hold {σ : Type} (answer : (q : Q) → σ → A q × σ) : Dialogue Q A α → σ → α × σ
  | .done x, s => (x, s)
  | .ask q next, s => (next (answer q s).1).hold answer (answer q s).2

theorem hold_bind {σ : Type} (answer : (q : Q) → σ → A q × σ) (d : Dialogue Q A α)
    (f : α → Dialogue Q A β) (s : σ) :
    (d.bind f).hold answer s = (f (d.hold answer s).1).hold answer (d.hold answer s).2 := by
  induction d generalizing s with
  | done x => rfl
  | ask q next ih => simp [bind, hold, ih]

/-- The outcome of a dialogue that may fail, with a further one behind it when it does not. -/
def andThen {ε : Type} (d : Dialogue Q A (Except ε α)) (f : α → Dialogue Q A (Except ε β)) :
    Dialogue Q A (Except ε β) :=
  d.bind fun
    | .ok x => f x
    | .error e => .done (.error e)

end Dialogue
end Polyshell
