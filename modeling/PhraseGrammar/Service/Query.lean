/-
Parameters of a query. A parameter that is given several times counts as given
last. Whole numbers are read generously: white space around, a plus sign,
zeros in front, a fraction of zeros and single underscores do not matter. A
number that has too many digits as it stands is told apart from a text
that is no number; one that has too many only once it is put in plain form is
not.
-/
import PhraseGrammar.Numeral
import PhraseGrammar.Text.Blank

namespace PhraseGrammar

/-- The parameters of a query in the order they were given. -/
abbrev Query := List (Text × Text)

/-- The value of a parameter. -/
def Query.get? (q : Query) (key : Text) : Option Text := q.reverse.lookup key

/-- What is wrong with a parameter. -/
inductive ParameterFault
  | notWhole
  | tooManyDigits
  | tooSmall
  | tooGreat
  deriving DecidableEq

/-- The name of a fault. -/
def ParameterFault.name : ParameterFault → Text
  | .notWhole => "int_parsing".toList
  | .tooManyDigits => "int_parsing_size".toList
  | .tooSmall => "greater_than_equal".toList
  | .tooGreat => "less_than_equal".toList

/-! ## Whole numbers -/

/-- The minus sign in front of a text, and the text after it. -/
def cutMinus : Text → Bool × Text
  | '-' :: rest => (true, rest)
  | t => (false, t)

/-- Reads a number in plain form: digits without a zero in front, unless it is
the only one, and maybe a minus sign before them. The digits must keep the
limit, whatever stands after them. -/
def readPlain (t : Text) : Except ParameterFault Int :=
  let (negative, unsigned) := cutMinus t
  let digits := unsigned.takeWhile Char.isDigit
  match digits with
  | [] => .error .notWhole
  | '0' :: _ => if unsigned = ['0'] then .ok 0 else .error .notWhole
  | _ =>
    if digitLimit < digits.length then .error .tooManyDigits
    else if digits.length = unsigned.length then
      .ok (if negative then -(digitsValue digits : Int) else digitsValue digits)
    else .error .notWhole

/-- Drops zeros and underscores up to another digit, to a minus sign, or to a
point, which keeps the character before it. `before` is that character. -/
def dropZerosAfter (before : Char) : Text → Option Text
  | [] => some [before]
  | c :: rest =>
    if c = '0' ∨ c = '_' then dropZerosAfter c rest
    else if c.isDigit ∨ c = '-' then some (c :: rest)
    else if c = '.' then some (before :: c :: rest)
    else none

/-- Drops zeros in front of a text that starts with a digit. -/
def dropZeros? : Text → Option Text
  | [] => none
  | c :: rest =>
    if c = '0' then dropZerosAfter c rest else if c.isDigit then some (c :: rest) else none

/-- Drops a point with zeros after it, and nothing else. -/
def dropFraction (t : Text) : Text :=
  match cutAt '.' t with
  | some (whole, fraction) => if !fraction.isEmpty && fraction.all (· == '0') then whole else t
  | none => t

/-- Two underscores side by side. -/
def hasDoubleUnderscore : Text → Bool
  | [] => false
  | [_] => false
  | c :: d :: rest => (c == '_' && d == '_') || hasDoubleUnderscore (d :: rest)

/-- Drops underscores that stand alone inside. -/
def dropUnderscores? (t : Text) : Option Text :=
  if t.head? = some '_' ∨ t.getLast? = some '_' ∨ hasDoubleUnderscore t then none
  else some (t.filter (· != '_'))

/-- The sign of a number, and the text after it. -/
def cutSign : Text → Bool × Text
  | '+' :: rest => (false, rest)
  | t => cutMinus t

/-- The plain form of a number. -/
def plainForm? (t : Text) : Option Text := do
  let (negative, t) := cutSign (trimBoth isWhiteSpace t)
  let t ← dropZeros? t
  let plain ← dropUnderscores? (dropFraction t)
  return if negative then '-' :: plain else plain

/-- Reads the value of a parameter that is a whole number. -/
def readQueryInteger (t : Text) : Except ParameterFault Int :=
  match readPlain t with
  | .ok n => .ok n
  | .error .notWhole =>
    match plainForm? t with
    | none => .error .notWhole
    | some plain => (readPlain plain).mapError fun _ => .notWhole
  | .error e => .error e

/-- A parameter that is a whole number and may be left out. -/
def Query.whole? (q : Query) (key : Text) : Except ParameterFault (Option Int) :=
  match q.get? key with
  | none => .ok none
  | some t => (readQueryInteger t).map some

/-- The bounds are kept. -/
def within (low high : Int) (n : Int) : Except ParameterFault Int :=
  if n < low then .error .tooSmall else if high < n then .error .tooGreat else .ok n

end PhraseGrammar
