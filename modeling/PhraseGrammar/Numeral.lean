/-
Decimal numerals, and the longest one that is read or written: a numeral of
more than `digitLimit` digits is refused in both directions, so that no text
makes the program work for long on one number.
-/
import PhraseGrammar.Text.Basic

namespace PhraseGrammar

/-- The most digits that a numeral may have. -/
def digitLimit : Nat := 4300

/-- The digits of `n`, without leading zeros. -/
def numeral (n : Nat) : Text := Nat.toDigits 10 n

/-- The digits of `n` after a minus sign if it is negative. -/
def signedNumeral (n : Int) : Text := if n < 0 then '-' :: numeral n.natAbs else numeral n.natAbs

/-- The number that decimal digits stand for; leading zeros do not count. -/
def digitsValue (ds : Text) : Nat := Nat.ofDigitChars 10 ds 0

/-- A numeral past the limit: one to be read, of so many digits, or one to be
written. -/
inductive NumeralError
  | reading (digits : Nat)
  | writing
  deriving DecidableEq

def NumeralError.message : NumeralError → Text
  | .reading digits =>
    "Exceeds the limit (4300 digits) for integer string conversion: value has ".toList ++
      numeral digits ++ " digits; use sys.set_int_max_str_digits() to increase the limit".toList
  | .writing =>
    ("Exceeds the limit (4300 digits) for integer string conversion; " ++
      "use sys.set_int_max_str_digits() to increase the limit").toList

/-- Reads decimal digits; leading zeros count against the limit. -/
def readNumeral (ds : Text) : Except NumeralError Nat :=
  if digitLimit < ds.length then .error (.reading ds.length) else .ok (digitsValue ds)

/-- A number that has too many digits to be written. -/
def tooLongToWrite (n : Int) : Bool := Nat.pow 10 digitLimit ≤ n.natAbs

/-- Writes a number that is not negative. -/
def writeNumeral (n : Nat) : Except NumeralError Text :=
  if tooLongToWrite n then .error .writing else .ok (numeral n)

theorem digitsValue_numeral (n : Nat) : digitsValue (numeral n) = n :=
  Nat.ofDigitChars_toDigits (by decide) (by decide)

end PhraseGrammar
