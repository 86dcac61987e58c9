/-
Expansion of rules into phrases. A rule is expanded by drawing one of its
values and replacing every reference in it by a fresh expansion of the rule it
names; what was put in is not read again. A name that is filed nowhere expands
to nothing, and so does a rule without values.

Nothing stops a rule that refers to itself but the two bounds on nesting: the
limit that the caller sets, which is a fault of its own, and the levels that
the stack has room for.
-/
import PhraseGrammar.Store
import PhraseGrammar.Template
import PhraseGrammar.Drawing
import PhraseGrammar.Numeral
import PhraseGrammar.Text.Upper

namespace PhraseGrammar

/-! ## Choosing a value -/

/-- The value whose share of the weights holds `r`: the first option has the
numbers below its weight, the next one those after it, and so on. -/
def valueAt (r : Nat) : List WeightedValue → Text
  | [] => []
  | o :: rest => if r < o.weight then o.value else valueAt (r - o.weight) rest

/-- Draws one of the values of a rule. When every weight is one the answer is
the position of the value. -/
def Rule.pick (r : Rule) : Drawing Text :=
  if r.options.isEmpty then .done []
  else if r.totalWeight = r.options.length then
    .draw r.options.length fun i => .done (((r.options[i]?).map (·.value)).getD [])
  else .draw r.totalWeight fun i => .done (valueAt i r.options)

/-! ## Expanding -/

/-- Why an expansion has no phrase. -/
inductive ExpansionError
  | noRules
  | limitExceeded (rule : Text) (limit : Nat)
  | stackExhausted
  deriving DecidableEq

/-- What an expansion ends in. -/
abbrev Expanded := Except ExpansionError Text

/-- Puts together the pieces of a value, expanding its references from left to
right up to the first that fails. -/
def assemble (expand : Text → Drawing Expanded) : List Piece → Drawing Expanded
  | [] => .done (.ok [])
  | .literal t :: rest => (assemble expand rest).map fun after => after.map (t ++ ·)
  | .reference name capitalize :: rest =>
    (expand name).bind fun
      | .error e => .done (.error e)
      | .ok t =>
        let t := if capitalize then capitalizeFirst t else t
        (assemble expand rest).map fun after => after.map (t ++ ·)

/-- The bound on nesting that a caller sets is reached at this depth. -/
def limitReached (limit : Option Nat) (depth : Nat) : Bool :=
  match limit with
  | none => false
  | some n => n ≤ depth

/-- Expands a rule at some depth of nesting. `levels` is the room that is left
on the stack. -/
def Store.expand (s : Store) (limit : Option Nat) (levels depth : Nat) (name : Text) :
    Drawing Expanded :=
  if isLiteralName name then .done (.ok name)
  else if limitReached limit depth then .done (.error (.limitExceeded name (limit.getD 0)))
  else
    match s.get? name with
    | none => .note (.undefined name) (.done (.ok []))
    | some rule =>
      match levels with
      | 0 => .done (.error .stackExhausted)
      | room + 1 => rule.pick.bind fun value => assemble (s.expand limit room (depth + 1)) (pieces value)

/-! ## Generators -/

/-- The levels of nesting that the stack has room for. It has room for a thousand calls,
of which each level takes one; the others are in use when an expansion begins. -/
def stackLevels : Nat := 960

/-- A store to generate from, and the bounds on nesting. -/
structure Generator where
  store : Store
  limit : Option Nat
  levels : Nat

/-- A limit on nesting that no expansion could keep. -/
inductive LimitError
  | belowOne
  deriving DecidableEq

def LimitError.message : LimitError → Text
  | .belowOne => "recursion_limit must be at least 1.".toList

/-- A generator on a store. The limit must be at least one. -/
def Generator.of (store : Store) (limit : Option Int) : Except LimitError Generator :=
  match limit with
  | none => .ok ⟨store, none, stackLevels⟩
  | some n => if n < 1 then .error .belowOne else .ok ⟨store, some n.toNat, stackLevels⟩

/-- Generates a phrase from the named rule, or from the starting rule. -/
def Generator.generate (g : Generator) (name : Option Text) : Drawing Expanded :=
  match name.or g.store.start with
  | none => .done (.error .noRules)
  | some rule => .note (.generating rule) (g.store.expand g.limit g.levels 0 rule)

def ExpansionError.message : ExpansionError → Text
  | .noRules => "No rules are defined".toList
  | .limitExceeded rule limit =>
    "Expansion of rule '".toList ++ rule ++ "' exceeded the recursion limit of ".toList ++
      numeral limit ++ ".".toList
  | .stackExhausted => "maximum recursion depth exceeded".toList

end PhraseGrammar
