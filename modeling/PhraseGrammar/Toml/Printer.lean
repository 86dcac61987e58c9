/-
The text of a value, for settings that take any value as a text. A text stands
for itself; inside arrays and tables it is quoted, and dates and times are
written as the constructions that make them.
-/
import PhraseGrammar.Toml.Value
import PhraseGrammar.Text.Quoted

namespace PhraseGrammar

namespace Toml

/-- The digits of `n`, at least `width` of them. -/
def padded (width n : Nat) : Text :=
  let ds := numeral n
  List.replicate (width - ds.length) '0' ++ ds

/-- A word for a truth value. -/
def booleanText (b : Bool) : Text := if b then "True".toList else "False".toList

/-- Why a value has no text: a number in it has too many digits, or its values
are nested too deep. -/
inductive TextFault
  | numeral (e : NumeralError)
  | tooDeep
  deriving DecidableEq

def TextFault.message : TextFault → Text
  | .numeral e => e.message
  | .tooDeep => "maximum recursion depth exceeded".toList

def integerText (n : Int) : Except TextFault Text :=
  if tooLongToWrite n then .error (.numeral .writing) else .ok (signedNumeral n)

/-! ## Dates and times in words -/

/-- A date as year, month and day. -/
def Date.text (d : Date) : Text := padded 4 d.year ++ '-' :: padded 2 d.month ++ '-' :: padded 2 d.day

/-- A time of day; the fraction has six digits and is left out if it is zero. -/
def Time.text (t : Time) : Text :=
  padded 2 t.hour ++ ':' :: padded 2 t.minute ++ ':' :: padded 2 t.second ++
    if t.micros = 0 then [] else '.' :: padded 6 t.micros

/-- An offset in hours and minutes. -/
def offsetText (minutes : Int) : Text :=
  let n := minutes.natAbs
  (if minutes < 0 then '-' else '+') :: padded 2 (n / 60) ++ ':' :: padded 2 (n % 60)

/-! ## Dates and times as constructions -/

/-- A name, and arguments in brackets after it. -/
def callText (name : String) (arguments : List Text) : Text :=
  name.toList ++ '(' :: joinWith ", ".toList arguments ++ [')']

/-- The numbers of a time of day; zeros at the end are left out after the
minute. -/
def Time.arguments (t : Time) : List Text :=
  [numeral t.hour, numeral t.minute] ++
    if t.micros ≠ 0 then [numeral t.second, numeral t.micros]
    else if t.second ≠ 0 then [numeral t.second]
    else []

def Date.arguments (d : Date) : List Text := [numeral d.year, numeral d.month, numeral d.day]

/-- An offset: a negative one is a day back and the seconds from there. -/
def offsetConstruction (minutes : Int) : Text :=
  if minutes = 0 then "datetime.timezone.utc".toList
  else
    let seconds := minutes * 60
    let span :=
      if 0 ≤ seconds then [("seconds=".toList ++ signedNumeral seconds)]
      else ["days=-1".toList, "seconds=".toList ++ signedNumeral (86400 + seconds)]
    callText "datetime.timezone" [callText "datetime.timedelta" span]

/-! ## Values -/

/-- The room for nesting, in calls, without those in use when a value is written: every
array and every table takes one, and so does what is in the innermost. -/
def writingRoom : Nat := 980

mutual

/-- A value as it stands inside an array or a table; `room` is what is left for
nesting. -/
def Value.shown (room : Nat) (v : Value) : Except TextFault Text :=
  match room with
  | 0 => .error .tooDeep
  | room + 1 =>
    match v with
    | .string t => .ok (quoted t)
    | .integer n => integerText n
    | .float x => .ok x.text
    | .boolean b => .ok (booleanText b)
    | .dateTime d t offset =>
      .ok (callText "datetime.datetime" (d.arguments ++ t.arguments ++
        match offset with
        | none => []
        | some minutes => ["tzinfo=".toList ++ offsetConstruction minutes]))
    | .date d => .ok (callText "datetime.date" d.arguments)
    | .time t => .ok (callText "datetime.time" t.arguments)
    | .array items =>
      (shownItems room items).map fun ts => '[' :: joinWith ", ".toList ts ++ [']']
    | .table entries =>
      (shownEntries room entries).map fun ts => openBrace :: joinWith ", ".toList ts ++ [closeBrace]

/-- The items of an array, up to the first that has no text. -/
def shownItems (room : Nat) : List Value → Except TextFault (List Text)
  | [] => .ok []
  | v :: rest =>
    match v.shown room with
    | .error e => .error e
    | .ok t => (shownItems room rest).map (t :: ·)

/-- The entries of a table, each with its key, up to the first that has no
text. -/
def shownEntries (room : Nat) : List (Text × Value) → Except TextFault (List Text)
  | [] => .ok []
  | (key, v) :: rest =>
    match v.shown room with
    | .error e => .error e
    | .ok t => (shownEntries room rest).map ((quoted key ++ ": ".toList ++ t) :: ·)

end

/-- The text of a value. -/
def Value.text : Value → Except TextFault Text
  | .string t => .ok t
  | .dateTime d t offset =>
    .ok (d.text ++ ' ' :: t.text ++
      match offset with
      | none => []
      | some minutes => offsetText minutes)
  | .date d => .ok d.text
  | .time t => .ok t.text
  | v => v.shown writingRoom

end Toml

end PhraseGrammar
