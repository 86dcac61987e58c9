/-
A store under work and a generator in use on it. The generator reads its store
as it stands when a phrase is asked for, so options that are added later can
be drawn; when the workbench turns to a new store, the generator stays with
the one that it was made for.
-/
import PhraseGrammar.Script
import PhraseGrammar.Source

namespace PhraseGrammar

/-- A generator in use: the store that the workbench has left to it, if it has
turned to another, the bounds on nesting, the source and all bounds that the
source was asked for. -/
structure ActiveGenerator where
  left : Option Store
  limit : Option Nat
  levels : Nat
  source : Source
  bounds : List Nat

/-- A store under work, and the generator in use. -/
structure Workbench where
  store : Store
  active : Option ActiveGenerator

namespace Workbench

/-- An empty store and no generator. -/
def empty : Workbench := ⟨.empty, none⟩

/-- Turns to a new store. -/
def turnTo (b : Workbench) (s : Store) : Workbench :=
  ⟨s, b.active.map fun g => { g with left := some (g.left.getD b.store) }⟩

/-- Turns to the store that a script makes; stays with the old one if the
script cannot be read to its end. -/
def renew (b : Workbench) (script : Text) : Except NumeralError Workbench :=
  (Store.ofScript script).map b.turnTo

/-- Reads a script into the store. -/
def read (b : Workbench) (script : Text) : Option NumeralError × Workbench :=
  let r := b.store.read script
  (r.fault, { b with store := r.store })

/-- Adds an option. -/
def add (b : Workbench) (name value : Text) (weight : Weight) :
    Except WeightError WeightedValue × Workbench :=
  let (s, r) := b.store.addWeighted name value weight
  (r, { b with store := s })

/-- Makes sure that there is a rule of the name. -/
def ensure (b : Workbench) (name : Text) : Workbench := { b with store := b.store.ensure name }

/-- Takes a new generator on the store into use. -/
def start (b : Workbench) (source : Source) (limit : Option Int) : Except LimitError Workbench :=
  (Generator.of b.store limit).map fun g =>
    { b with active := some ⟨none, g.limit, g.levels, source, []⟩ }

/-- The generator in use, on its store as it is now. -/
def generator (b : Workbench) (g : ActiveGenerator) : Generator :=
  ⟨g.left.getD b.store, g.limit, g.levels⟩

/-- Generates phrases with the generator in use; an expansion that exhausts
the stack is the last. -/
def generate (b : Workbench) (g : ActiveGenerator) (name : Option Text) (count : Nat) :
    List Expanded × Workbench :=
  let s := (b.generator g).session Source.next (· == .stackExhausted) name count g.source
  (s.outcomes, { b with active := some { g with source := s.source, bounds := g.bounds ++ s.bounds } })

end Workbench

end PhraseGrammar
