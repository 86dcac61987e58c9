/-
Whole numbers as people type them: white space around, a sign, decimal digits
of any script, and single underscores between digits.
-/
import PhraseGrammar.Numeral
import PhraseGrammar.Text.Blank
import PhraseGrammar.Text.DecimalDigit

namespace PhraseGrammar

/-- The digits of a number that is written with single underscores between
them. `after` says that a digit stands before. -/
def typedDigits? (after : Bool) : Text → Option (List Nat)
  | [] => if after then some [] else none
  | c :: rest =>
    match digitValue? c with
    | some d => (typedDigits? true rest).map (d :: ·)
    | none => if after && c == '_' then typedDigits? false rest else none

/-- Reads a typed number. One with too many digits is no number. -/
def readTypedInteger? (t : Text) : Option Int :=
  let t := trimBoth isWhiteSpace t
  let (negative, digits) := match t with
    | '-' :: rest => (true, rest)
    | '+' :: rest => (false, rest)
    | _ => (false, t)
  match typedDigits? false digits with
  | none => none
  | some ds =>
    if digitLimit < ds.length then none
    else
      let n : Nat := ds.foldl (fun n d => n * 10 + d) 0
      some (if negative then -(n : Int) else n)

end PhraseGrammar
