/-
Decimal text of 64-bit numbers: reading `1_000.5e-3` and the like, and the
shortest text that reads back as the same number.

For one digit, two digits and so on, the number lies between two neighbours of
the decimal grid with so many digits; the first grid that has a neighbour
within the interval of reals that round to the number gives the digits, the
nearer neighbour if both do.
-/
import PhraseGrammar.Binary64.Basic
import PhraseGrammar.Numeral
import PhraseGrammar.Text.Blank
import PhraseGrammar.Text.DecimalDigit

namespace PhraseGrammar

namespace Binary64

/-! ## Reading -/

/-- The parts of a decimal numeral: digits before the point, digits after it
and the exponent. -/
structure DecimalParts where
  negative : Bool
  whole : Text
  fraction : Text
  exponent : Int

/-- The number that the parts stand for. -/
def DecimalParts.value (p : DecimalParts) : Binary64 :=
  ofDecimal p.negative (digitsValue (p.whole ++ p.fraction)) (p.exponent - p.fraction.length)

/-- The sign in front of a text and the text after it. -/
def takeSign : Text → Bool × Text
  | '-' :: rest => (true, rest)
  | '+' :: rest => (false, rest)
  | rest => (false, rest)

/-- The exponent after `e` or `E`, if it is written there to the end. -/
def readExponent? : Text → Option Int
  | [] => some 0
  | mark :: rest =>
    if mark = 'e' ∨ mark = 'E' then
      let (negative, ds) := takeSign rest
      if ds.isEmpty || !ds.all Char.isDigit then none
      else some (if negative then -(digitsValue ds : Int) else digitsValue ds)
    else none

/-- Reads a decimal numeral with an optional sign, point and exponent. -/
def readDecimal? (t : Text) : Option Binary64 :=
  let (negative, rest) := takeSign t
  let whole := rest.takeWhile Char.isDigit
  let (fraction, rest) :=
    match rest.dropWhile Char.isDigit with
    | '.' :: more => (more.takeWhile Char.isDigit, more.dropWhile Char.isDigit)
    | more => ([], more)
  if whole.isEmpty && fraction.isEmpty then none
  else (readExponent? rest).map fun e => (DecimalParts.mk negative whole fraction e).value

/-- A text with the decimal digits of all scripts written as the plain ones,
and without the underscores that stand alone between two digits; there may be
no others. `after` says that a digit stands before. -/
def plainDigits? (after : Bool) : Text → Option Text
  | [] => some []
  | c :: rest =>
    match digitValue? c with
    | some d => (plainDigits? true rest).map (Nat.digitChar d :: ·)
    | none =>
      if c ≠ '_' then (plainDigits? false rest).map (c :: ·)
      else if after && rest.head?.any isDecimalDigit then plainDigits? false rest
      else none

/-- Reads a numeral or one of the words for what is not finite. -/
def readPlain? (t : Text) : Option Binary64 :=
  let (negative, rest) := takeSign t
  let word := String.ofList (rest.map Char.toLower)
  if word = "inf" ∨ word = "infinity" then some (.infinite negative)
  else if word = "nan" then some .notANumber
  else readDecimal? t

/-- Reads a number as people type it, with white space around. -/
def read? (t : Text) : Option Binary64 :=
  (plainDigits? false (trimBoth isWhiteSpace t)).bind readPlain?

/-! ## The shortest digits -/

/-- A positive number and the ends of the interval that rounds to it, over one
denominator, in fourths of the last place. -/
structure Interval where
  low : Nat
  value : Nat
  high : Nat
  den : Nat
  /-- The ends themselves round to the number. -/
  closed : Bool

/-- The interval of `m * 2^e`. Below a power of two the numbers lie twice as
close, so the lower end is nearer. -/
def Interval.of (m : Nat) (e : Int) : Interval :=
  let below := if m = significandBound / 2 ∧ leastExponent < e then 1 else 2
  let unit := if 2 ≤ e then Nat.pow 2 (e - 2).toNat else 1
  let den := if 2 ≤ e then 1 else Nat.pow 2 (2 - e).toNat
  ⟨(4 * m - below) * unit, 4 * m * unit, (4 * m + 2) * unit, den, m % 2 = 0⟩

/-- The interval holds `num / den'`. -/
def Interval.holds (i : Interval) (num den' : Nat) : Bool :=
  if i.closed then i.low * den' ≤ num * i.den && num * i.den ≤ i.high * den'
  else i.low * den' < num * i.den && num * i.den < i.high * den'

/-- Counts how often `den` has to be divided by ten to be at most `num`. -/
def placesBelow (num den : Nat) : Nat → Nat
  | 0 => 0
  | fuel + 1 => if den ≤ num then 0 else placesBelow (num * 10) den fuel + 1

/-- The power of ten just above `num / den`: `10^(k-1) ≤ num / den < 10^k`. -/
def magnitude (num den : Nat) : Int :=
  if den ≤ num then (Nat.toDigits 10 (num / den)).length
  else 1 - (placesBelow num den 400 : Int)

/-- The neighbour of the value on the grid of `count` digits, `k` being the
magnitude: the nearer of the two that the interval holds. -/
def Interval.onGrid? (i : Interval) (k : Int) (count : Nat) : Option Nat :=
  let step := k - count
  let up := if 0 ≤ step then Nat.pow 10 step.toNat else 1
  let down := if 0 ≤ step then 1 else Nat.pow 10 (-step).toNat
  -- A point `d` of the grid is `d * up / down`.
  let d := i.value * down / (i.den * up)
  let gapBelow := i.value * down - d * i.den * up
  let gapAbove := (d + 1) * i.den * up - i.value * down
  let lower := i.holds (d * up) down
  let upper := i.holds ((d + 1) * up) down
  if lower && upper then
    some (if gapBelow < gapAbove ∨ (gapBelow = gapAbove ∧ d % 2 = 0) then d else d + 1)
  else if lower then some d
  else if upper then some (d + 1)
  else none

/-- The shortest digits of the value, trying `count` digits first. -/
def Interval.shortest (i : Interval) (k : Int) (count : Nat) : Nat → Nat
  | 0 => 0
  | fuel + 1 =>
    match i.onGrid? k count with
    | some d => d * Nat.pow 10 (17 - count)
    | none => i.shortest k (count + 1) fuel

/-! ## Writing -/

/-- Drops the zeros at the end. -/
def dropTrailingZeros (ds : Text) : Text := (ds.reverse.dropWhile (· == '0')).reverse

/-- The digits `ds` with the point after the first `point` of them: positional
from `10^-4` up to `10^16`, with an exponent outside. -/
def layOut (ds : Text) (point : Int) : Text :=
  if -4 < point ∧ point ≤ 16 then
    if point ≤ 0 then "0.".toList ++ List.replicate (-point).toNat '0' ++ ds
    else
      let n := point.toNat
      let whole := ds.take n ++ List.replicate (n - ds.length) '0'
      let fraction := ds.drop n
      whole ++ '.' :: (if fraction.isEmpty then ['0'] else fraction)
  else
    let e := point - 1
    let size := numeral e.natAbs
    let padded := if size.length < 2 then '0' :: size else size
    let fraction := ds.drop 1
    ds.take 1 ++ (if fraction.isEmpty then [] else '.' :: fraction) ++
      'e' :: (if e < 0 then '-' else '+') :: padded

/-- The shortest text that reads back as the number. -/
def text : Binary64 → Text
  | .notANumber => "nan".toList
  | .infinite negative => if negative then "-inf".toList else "inf".toList
  | .finite negative m e =>
    let sign := if negative then ['-'] else []
    if m = 0 then sign ++ "0.0".toList
    else
      let i := Interval.of m e
      let k := magnitude i.value i.den
      let ds := numeral (i.shortest k 1 17)
      -- A digit more than seventeen means that the value was rounded up to a power of ten.
      sign ++ layOut (dropTrailingZeros ds) (k + (ds.length - 17 : Int))

end Binary64

end PhraseGrammar
