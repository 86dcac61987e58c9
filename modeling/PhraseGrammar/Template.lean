/-
A value as a template: literal text and references to rules. `[name]` refers
to a rule, and `[^name]` asks for its expansion with the first character in
upper case. A name goes up to the first `]`, whatever stands in it; a `[`
that is never closed is literal, with all that follows it.
-/
import PhraseGrammar.Text.Basic

namespace PhraseGrammar

/-- A piece of a template. -/
inductive Piece
  | literal (text : Text)
  | reference (name : Text) (capitalize : Bool)
  deriving DecidableEq

/-- The reference that stands between brackets. -/
def Piece.ofBracketed : Text → Piece
  | '^' :: name => .reference name true
  | name => .reference name false

/-- Literal text as pieces: none if it is empty. -/
def literalPieces (t : Text) : List Piece := if t.isEmpty then [] else [.literal t]

/-- The pieces of a value, from left to right. -/
def pieces (value : Text) : List Piece :=
  match _h : cutAt '[' value with
  | none => literalPieces value
  | some (before, rest) =>
    match _h' : cutAt ']' rest with
    | none => literalPieces value
    | some (inside, after) => literalPieces before ++ Piece.ofBracketed inside :: pieces after
termination_by value.length
decreasing_by
  obtain ⟨rfl, -⟩ := cutAt_eq_some _h
  obtain ⟨rfl, -⟩ := cutAt_eq_some _h'
  simp
  omega

/-- The names that stand for themselves between brackets. -/
def isLiteralName (name : Text) : Bool :=
  name == [' '] || name == ['*'] || name == ['['] || name == [']'] || name == ['#']

end PhraseGrammar
