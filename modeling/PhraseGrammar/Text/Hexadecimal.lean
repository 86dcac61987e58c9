/-
Hexadecimal numbers as they are typed: digits of either case.
-/
import PhraseGrammar.Text.Basic

namespace PhraseGrammar

/-- A hexadecimal digit of either case. -/
def isHexDigit (c : Char) : Bool := c.isDigit || ('a' ≤ c && c ≤ 'f') || ('A' ≤ c && c ≤ 'F')

/-- The value of a hexadecimal digit. -/
def hexDigitValue (c : Char) : Nat :=
  if c.isDigit then c.toNat - 0x30 else (c.toLower.toNat - 0x61) + 10

/-- The number that hexadecimal digits write. -/
def hexNumber? (ds : Text) : Option Nat :=
  if ds.all isHexDigit then some (ds.foldl (fun n c => n * 16 + hexDigitValue c) 0) else none

example : hexNumber? "2f".toList = some 47 := by decide +kernel

end PhraseGrammar
