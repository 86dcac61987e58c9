/-
Computations that ask for random draws. A `Drawing` is the tree of all its
runs: it asks for a number below a bound and goes on with the answer, takes
note of something that a reader may want to see, or is done. What answers is
left open, so that two drawings that are equal behave alike on every source,
and a run against a source records the bounds in the order they were asked.
-/
import PhraseGrammar.Text.Basic

namespace PhraseGrammar

/-- What an expansion takes note of. -/
inductive Notice
  | generating (rule : Text)
  | undefined (rule : Text)
  deriving DecidableEq

/-- A computation that ends in an `α` after some draws. -/
inductive Drawing (α : Type)
  | done (a : α)
  | note (n : Notice) (rest : Drawing α)
  | draw (bound : Nat) (rest : Nat → Drawing α)

namespace Drawing

variable {α β : Type} {σ : Type}

/-- Goes on with what the first drawing ends in. -/
def bind (d : Drawing α) (f : α → Drawing β) : Drawing β :=
  match d with
  | done a => f a
  | note n rest => note n (rest.bind f)
  | draw bound rest => draw bound fun r => (rest r).bind f

/-- Changes what a drawing ends in. -/
def map (f : α → β) (d : Drawing α) : Drawing β := d.bind fun a => done (f a)

/-- What a run left behind: its result, the bounds it asked for, what it took
note of, and the source after it. -/
structure Run (σ α : Type) where
  result : α
  bounds : List Nat
  notices : List Notice
  source : σ

/-- Runs a drawing against a source, of which `next` takes an answer. -/
def run (next : σ → Nat → Nat × σ) : Drawing α → σ → Run σ α
  | done a, s => ⟨a, [], [], s⟩
  | note n rest, s =>
    let r := rest.run next s
    { r with notices := n :: r.notices }
  | draw bound rest, s =>
    let (answer, s') := next s bound
    let r := (rest answer).run next s'
    { r with bounds := bound :: r.bounds }

end Drawing

end PhraseGrammar
