/-
The store of a phrase grammar: named rules in the order of their creation, and
the rule that generation starts from, which is the first one ever created.

A rule counts the sum of its weights as options are added, and the store keeps
the starting rule beside the list of rules; that both agree with the list is a
fact about the operations, not a part of the types. The operations never
remove or move a rule, and never remove an option.
-/
import PhraseGrammar.Text.Basic
import PhraseGrammar.Binary64.Basic

namespace PhraseGrammar

/-! ## Weights -/

/-- A weight as it is asked for: a whole number, or a floating-point number
whose fraction is dropped. -/
inductive Weight
  | whole (n : Int)
  | real (x : Binary64)

/-- A floating-point weight that has no whole part. -/
inductive WeightError
  | notANumber
  | infinite
  deriving DecidableEq

def WeightError.message : WeightError → Text
  | .notANumber => "cannot convert float NaN to integer".toList
  | .infinite => "cannot convert float infinity to integer".toList

/-- The whole number that a weight asks for. -/
def Weight.toInt : Weight → Except WeightError Int
  | .whole n => .ok n
  | .real x =>
    match x.wholePart? with
    | some n => .ok n
    | none => .error (if x = .notANumber then .notANumber else .infinite)

/-! ## Rules -/

/-- A value and how many times it counts. -/
structure WeightedValue where
  value : Text
  weight : Nat
  deriving DecidableEq

/-- A named choice between weighted values. -/
structure Rule where
  name : Text
  options : List WeightedValue
  totalWeight : Nat
  deriving DecidableEq

/-- A rule without options. -/
def Rule.empty (name : Text) : Rule := ⟨name, [], 0⟩

/-- The weight that is kept: one, if what is asked for is not positive. -/
def keptWeight (n : Int) : Nat := if n ≤ 0 then 1 else n.toNat

/-- Adds an option at the end. -/
def Rule.add (r : Rule) (value : Text) (weight : Int) : Rule :=
  { r with
    options := r.options ++ [⟨value, keptWeight weight⟩]
    totalWeight := r.totalWeight + keptWeight weight }

/-! ## The store -/

/-- Rules filed under their names, in the order of their creation, and the
starting rule. -/
structure Store where
  rules : List (Text × Rule)
  start : Option Text
  deriving DecidableEq

namespace Store

/-- No rules. -/
def empty : Store := ⟨[], none⟩

/-- The rule filed under a name. -/
def get? (s : Store) (name : Text) : Option Rule := s.rules.lookup name

/-- A rule is filed under the name. -/
def contains (s : Store) (name : Text) : Bool := (s.get? name).isSome

/-- The names under which rules are filed, in the order of their creation. -/
def names (s : Store) : List Text := s.rules.map (·.1)

/-- Creates an empty rule unless there is one of that name. The first rule to
be created is the starting rule. -/
def ensure (s : Store) (name : Text) : Store :=
  if s.contains name then s
  else ⟨s.rules ++ [(name, Rule.empty name)], some (s.start.getD name)⟩

/-- Changes the rule filed under a name, where it stands. -/
def update (s : Store) (name : Text) (f : Rule → Rule) : Store :=
  { s with rules := s.rules.map fun e => if e.1 = name then (e.1, f e.2) else e }

/-- Adds an option to the rule of that name, creating the rule if need be. -/
def add (s : Store) (name value : Text) (weight : Int) : Store :=
  (s.ensure name).update name (·.add value weight)

/-- Adds an option with a weight that may fail to be one; the rule has been
created by then. -/
def addWeighted (s : Store) (name value : Text) (weight : Weight) :
    Store × Except WeightError WeightedValue :=
  match weight.toInt with
  | .ok n => (s.add name value n, .ok ⟨value, keptWeight n⟩)
  | .error e => (s.ensure name, .error e)

end Store

/-! ## Looking up what was added -/

theorem keptWeight_pos (n : Int) : 0 < keptWeight n := by
  unfold keptWeight; split <;> omega

theorem Store.get?_ensure_self (s : Store) (name : Text) :
    (s.ensure name).get? name = some ((s.get? name).getD (Rule.empty name)) := by
  unfold ensure contains
  cases h : s.get? name with
  | some r => simp [h]
  | none =>
    simp only [get?] at h
    simp [get?, List.lookup_append, h]

theorem Store.get?_ensure_other {s : Store} {name other : Text} (h : other ≠ name) :
    (s.ensure name).get? other = s.get? other := by
  unfold ensure
  split
  · rfl
  · have hne : (other == name) = false := beq_eq_false_iff_ne.mpr h
    simp [get?, List.lookup_append, List.lookup_cons, hne]

theorem Store.get?_update (s : Store) (name other : Text) (f : Rule → Rule) :
    (s.update name f).get? other =
      if other = name then (s.get? other).map f else s.get? other := by
  simp only [get?, update]
  induction s.rules with
  | nil => simp
  | cons e rest ih =>
    obtain ⟨key, r⟩ := e
    have hhead : (if key = name then (key, f r) else (key, r)) =
        (key, if key = name then f r else r) := by split <;> rfl
    rw [List.map_cons, hhead]
    by_cases ho : other = key
    · subst ho
      by_cases hk : other = name <;> simp [hk]
    · have hne : (other == key) = false := beq_eq_false_iff_ne.mpr ho
      simp only [List.lookup_cons, hne]
      exact ih

end PhraseGrammar
