/-
Upper case. One character may become several: the upper case of `ß` is `SS`.
-/
import PhraseGrammar.Text.UpperTable

namespace PhraseGrammar

/-- The upper case of a character, the character itself if it has none. -/
def upperChar (c : Char) : Text :=
  match upperSequences.lookup c.toNat with
  | some codes => codes.map Char.ofNat
  | none =>
    match upperRuns.find? (·.holds c.toNat) with
    | some run => [Char.ofNat ((c.toNat : Int) + run.shift).toNat]
    | none => [c]

/-- Puts the first character in upper case and leaves the rest alone. -/
def capitalizeFirst (t : Text) : Text := mapFirst upperChar t

end PhraseGrammar
