/-
Values of the configuration language: texts, numbers, truth values, dates and
times, arrays and tables. A table keeps its keys in the order they were put
in, and no key is in it twice.
-/
import PhraseGrammar.Binary64.Numeral

namespace PhraseGrammar

namespace Toml

/-- A day of the calendar. -/
structure Date where
  year : Nat
  month : Nat
  day : Nat
  deriving DecidableEq

/-- A time of day, to the microsecond. -/
structure Time where
  hour : Nat
  minute : Nat
  second : Nat
  micros : Nat
  deriving DecidableEq

/-- The days of a month. -/
def daysInMonth (year month : Nat) : Nat :=
  if month = 2 then
    if year % 4 = 0 ∧ (year % 100 ≠ 0 ∨ year % 400 = 0) then 29 else 28
  else if month = 4 ∨ month = 6 ∨ month = 9 ∨ month = 11 then 30
  else 31

/-- The day is there in the calendar, which starts with the year one. -/
def Date.isValid (d : Date) : Bool :=
  1 ≤ d.year && 1 ≤ d.month && d.month ≤ 12 && 1 ≤ d.day && d.day ≤ daysInMonth d.year d.month

/-- A value. The offset of a date and time is in minutes; one without an
offset is local. -/
inductive Value
  | string (t : Text)
  | integer (n : Int)
  | float (x : Binary64)
  | boolean (b : Bool)
  | dateTime (d : Date) (t : Time) (offset : Option Int)
  | date (d : Date)
  | time (t : Time)
  | array (items : List Value)
  | table (entries : List (Text × Value))

/-- A table: keys and what they stand for, in the order they were put in. -/
abbrev Table := List (Text × Value)

/-- An array or a table. -/
def Value.isContainer : Value → Bool
  | .array _ | .table _ => true
  | _ => false

namespace Table

/-- What a key stands for. -/
def get? (t : Table) (key : Text) : Option Value := t.lookup key

/-- Lets a key stand for a value: where it stands already, or at the end. -/
def put (t : Table) (key : Text) (v : Value) : Table :=
  if (t.lookup key).isSome then t.map fun e => if e.1 = key then (key, v) else e
  else t ++ [(key, v)]

/-- Changes the table that keys lead to, with empty tables made on the way.
With `throughArrays` an array leads to its last item. There is none if
something on the way is no table. -/
def changeAt (throughArrays : Bool) (change : Table → Option Table) : List Text → Table → Option Table
  | [], t => change t
  | key :: rest, t =>
    match get? t key with
    | none => (changeAt throughArrays change rest []).map fun u => put t key (.table u)
    | some (.table u) => (changeAt throughArrays change rest u).map fun u => put t key (.table u)
    | some (.array items) =>
      match throughArrays, items.getLast? with
      | true, some (.table u) =>
        (changeAt throughArrays change rest u).map fun u =>
          put t key (.array (items.dropLast ++ [.table u]))
      | _, _ => none
    | some _ => none

/-- Appends an empty table to the array that a key stands for, or starts one. -/
def appendTable (key : Text) (t : Table) : Option Table :=
  match get? t key with
  | none => some (put t key (.array [.table []]))
  | some (.array items) => some (put t key (.array (items ++ [.table []])))
  | some _ => none

/-- Lets a key stand for a value that it does not stand for yet. -/
def putNew (key : Text) (v : Value) (t : Table) : Option Table :=
  if (get? t key).isSome then none else some (put t key v)

end Table

end Toml

end PhraseGrammar
