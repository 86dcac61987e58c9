/-
Sources of draws, and runs of several expansions against one source. A source
answers a bound with a number below it: from a list of answers made
beforehand, always the greatest one, or at random.
-/
import PhraseGrammar.Expansion
import PhraseGrammar.Twister

namespace PhraseGrammar

/-- A source of draws. -/
inductive Source
  | scripted (answers : List Int)
  | greatest
  | random (state : Twister)

namespace Source

/-- The source for a seed. -/
def ofSeed (seed : Int) : Source := .random (.ofSeed seed)

/-- The answer that is nearest to `n` below the bound. -/
def clampBelow (n : Int) (bound : Nat) : Nat := min n.toNat (bound - 1)

/-- Takes a number below the bound. A script that is used up answers zero. -/
def next (s : Source) (bound : Nat) : Nat × Source :=
  match s with
  | .scripted [] => (0, .scripted [])
  | .scripted (n :: rest) => (clampBelow n bound, .scripted rest)
  | .greatest => (bound - 1, .greatest)
  | .random t =>
    let (n, t) := t.below bound
    (n, .random t)

/-- Every answer is below its bound. -/
theorem next_lt (s : Source) {bound : Nat} (h : 0 < bound) : (s.next bound).1 < bound := by
  unfold next
  split
  · exact h
  · simp only [clampBelow]; omega
  · simp only; omega
  · exact Twister.below_lt _ h

end Source

/-! ## Several phrases from one source -/

/-- What a generator has produced so far: the outcomes, the bounds that were
asked for, what was taken note of, and the source that is left. -/
structure Session (σ : Type) where
  outcomes : List Expanded
  bounds : List Nat
  notices : List Notice
  source : σ

/-- Generates `count` phrases one after the other, going on after failures
unless `stop` says that one ends the session. -/
def Generator.session {σ : Type} (next : σ → Nat → Nat × σ) (stop : ExpansionError → Bool)
    (g : Generator) (name : Option Text) : Nat → σ → Session σ
  | 0, s => ⟨[], [], [], s⟩
  | count + 1, s =>
    let r := (g.generate name).run next s
    let ended := match r.result with
      | .error e => stop e
      | .ok _ => false
    if ended then ⟨[r.result], r.bounds, r.notices, r.source⟩
    else
      let rest := g.session next stop name count r.source
      ⟨r.result :: rest.outcomes, r.bounds ++ rest.bounds, r.notices ++ rest.notices, rest.source⟩

end PhraseGrammar
