/-
Floating-point numbers of 64 bits, as the numbers they are: a significand
below `2^53` times a power of two that is at least `2^-1074`, with a sign, the
two infinities and the value that is no number. `nearest` gives the one next
to a fraction, a tie going to the even significand.
-/

namespace PhraseGrammar

/-- A number of 64 bits. A finite one is `significand * 2^exponent`. -/
inductive Binary64
  | finite (negative : Bool) (significand : Nat) (exponent : Int)
  | infinite (negative : Bool)
  | notANumber
  deriving DecidableEq

namespace Binary64

/-- The least exponent. -/
def leastExponent : Int := -1074

/-- The greatest exponent. -/
def greatestExponent : Int := 971

/-- Every significand is below this. -/
def significandBound : Nat := Nat.pow 2 53

/-- `num / den` in whole numbers, to the nearest, a tie to the even one. -/
def divideToEven (num den : Nat) : Nat :=
  let q := num / den
  let r := num % den
  if 2 * r < den then q
  else if den < 2 * r then q + 1
  else if q % 2 = 0 then q else q + 1

/-- `num / (den * 2^e)` as numerator and denominator. -/
def scaleDown (num den : Nat) (e : Int) : Nat × Nat :=
  if 0 ≤ e then (num, den * Nat.pow 2 e.toNat) else (num * Nat.pow 2 (-e).toNat, den)

/-- The exponent at which `num / den` has a significand of 53 bits, or the
least exponent if that is greater. -/
def exponentOf (num den : Nat) : Int :=
  let guess : Int := (num.log2 : Int) - den.log2 - 53
  let (a, b) := scaleDown num den guess
  max leastExponent (if a < b * significandBound then guess else guess + 1)

/-- The number nearest to `num / den`, with the given sign. -/
def nearest (negative : Bool) (num den : Nat) : Binary64 :=
  if num = 0 then .finite negative 0 leastExponent
  else
    let e := exponentOf num den
    let (a, b) := scaleDown num den e
    let m := divideToEven a b
    let (m, e) := if m = significandBound then (significandBound / 2, e + 1) else (m, e)
    if greatestExponent < e then .infinite negative else .finite negative m e

/-- The number nearest to `digits * 10^e`. Past `10^400` it is infinite and
below `10^-400` it is zero, whatever the digits are, once they are counted. -/
def ofDecimal (negative : Bool) (digits : Nat) (e : Int) : Binary64 :=
  let size : Int := e + (Nat.toDigits 10 digits).length
  if digits = 0 then .finite negative 0 leastExponent
  else if 400 < size then .infinite negative
  else if size < -400 then .finite negative 0 leastExponent
  else if 0 ≤ e then nearest negative (digits * Nat.pow 10 e.toNat) 1
  else nearest negative digits (Nat.pow 10 (-e).toNat)

/-- The whole part of a finite number: what is left after dropping the
fraction. -/
def wholePart? : Binary64 → Option Int
  | .finite negative m e =>
    let n : Nat := if 0 ≤ e then m * Nat.pow 2 e.toNat else m / Nat.pow 2 (-e).toNat
    some (if negative then -(n : Int) else n)
  | _ => none

end Binary64

end PhraseGrammar
