/-
Reading the parts of a configuration that hold no other values: comments,
keys, texts, numbers, dates and times. Every reader takes the text from where
it stands and gives what it read and the text after it.
-/
import PhraseGrammar.Toml.Value
import PhraseGrammar.Text.Escape
import PhraseGrammar.Text.Hexadecimal

namespace PhraseGrammar

namespace Toml

/-- Why a configuration cannot be read: it breaks the rules of the language,
a whole number in it has too many digits, or its values are nested too deep. -/
inductive Fault
  | malformed
  | numeral (e : NumeralError)
  | tooDeep
  deriving DecidableEq

/-- What a reader gives: a value and the text after it. -/
abbrev Read (α : Type) := Except Fault (α × Text)

/-! ## Blanks and comments -/

/-- A control character other than a tab, which no line may hold. -/
def isControl (c : Char) : Bool := (c.toNat < 0x20 && c != '\t') || c.toNat == 0x7f

/-- Skips spaces and tabs. -/
def skipPadding (t : Text) : Text := t.dropWhile isPadding

/-- Skips a comment up to the end of its line. -/
def skipComment (t : Text) : Except Fault Text :=
  match t with
  | '#' :: rest =>
    if (rest.takeWhile (· != '\n')).any isControl then .error .malformed
    else .ok (rest.dropWhile (· != '\n'))
  | _ => .ok t

/-- Skips spaces, tabs, line ends and comments; `fuel` is the length of the
text at least. -/
def skipFiller : Nat → Text → Except Fault Text
  | 0, t => .ok t
  | fuel + 1, t =>
    match t with
    | [] => .ok []
    | c :: rest =>
      if isPadding c || c == '\n' then skipFiller fuel rest
      else if c = '#' then (skipComment t).bind (skipFiller fuel)
      else .ok t

/-! ## Texts -/

/-- The character of a hexadecimal number; not every number has one. -/
def charOfHex? (ds : Text) : Option Char :=
  (hexNumber? ds).bind fun n =>
    if n < 0xd800 ∨ (0xdfff < n ∧ n < 0x110000) then some (Char.ofNat n) else none

/-- Reads a character from `width` hexadecimal digits. -/
def readHexChar (width : Nat) (t : Text) : Read Text :=
  let ds := t.take width
  if ds.length < width then .error .malformed
  else
    match charOfHex? ds with
    | some c => .ok ([c], t.drop width)
    | none => .error .malformed

/-- What one character after a backslash stands for. -/
def shortEscape? : Char → Option Char
  | 'b' => some '\x08'
  | 't' => some '\t'
  | 'n' => some '\n'
  | 'f' => some '\x0c'
  | 'r' => some '\r'
  | '"' => some '"'
  | '\\' => some '\\'
  | _ => none

/-- Reads an escape after its backslash. In a text of several lines a
backslash at the end of a line stands for nothing, with the blanks after it. -/
def readEscape (multiline : Bool) : Text → Read Text
  | [] => .error .malformed
  | c :: rest =>
    if multiline && (isPadding c || c == '\n') then
      let after := skipPadding (c :: rest)
      match after with
      | [] => .ok ([], [])
      | '\n' :: more => .ok ([], more.dropWhile fun d => isPadding d || d == '\n')
      | _ => .error .malformed
    else if c = 'u' then readHexChar 4 rest
    else if c = 'U' then readHexChar 8 rest
    else
      match shortEscape? c with
      | some d => .ok ([d], rest)
      | none => .error .malformed

/-- Three of one quote. -/
def triple (quote : Char) : Text := [quote, quote, quote]

/-- Reads a text with escapes up to the quotes that end it; `fuel` is the
length of the text at least. -/
def readBasic (multiline : Bool) : Nat → Text → Read Text
  | 0, _ => .error .malformed
  | fuel + 1, t =>
    match t with
    | [] => .error .malformed
    | c :: rest =>
      if c = '"' then
        if !multiline then .ok ([], rest)
        else if (triple '"').isPrefixOf t then .ok ([], t.drop 3)
        else (readBasic multiline fuel rest).map fun (s, after) => (c :: s, after)
      else if c = '\\' then
        match readEscape multiline rest with
        | .error e => .error e
        | .ok (s, after) => (readBasic multiline fuel after).map fun (s', after) => (s ++ s', after)
      else if isControl c && !(multiline && c == '\n') then .error .malformed
      else (readBasic multiline fuel rest).map fun (s, after) => (c :: s, after)

/-- The text before three quotes and the text after them. -/
def cutAtTriple (quote : Char) : Text → Option (Text × Text)
  | [] => none
  | c :: rest =>
    if (triple quote).isPrefixOf (c :: rest) then some ([], rest.drop 2)
    else (cutAtTriple quote rest).map fun (a, b) => (c :: a, b)

/-- Reads a text without escapes after its quote, up to the next one. -/
def readLiteral (t : Text) : Read Text :=
  match cutAt '\'' t with
  | none => .error .malformed
  | some (s, after) => if s.any isControl then .error .malformed else .ok (s, after)

/-- Up to two quotes before the three that end a text belong to the text. -/
def takeExtraQuotes (quote : Char) (s : Text) (after : Text) : Text × Text :=
  match after with
  | c :: rest =>
    if c ≠ quote then (s, after)
    else
      match rest with
      | d :: rest' => if d ≠ quote then (s ++ [quote], rest) else (s ++ [quote, quote], rest')
      | [] => (s ++ [quote], [])
  | [] => (s, [])

/-- A line end right after the opening quotes does not count. -/
def dropFirstLineFeed : Text → Text
  | '\n' :: rest => rest
  | t => t

/-- Reads a text of several lines after its three quotes. -/
def readMultiline (quote : Char) (t : Text) : Read Text :=
  let t := dropFirstLineFeed t
  let body : Read Text :=
    if quote = '"' then readBasic true (t.length + 1) t
    else
      match cutAtTriple quote t with
      | none => .error .malformed
      | some (s, after) =>
        if s.any fun c => isControl c && c != '\n' then .error .malformed else .ok (s, after)
  body.map fun (s, after) => takeExtraQuotes quote s after

/-- Reads a text that starts with a quote. -/
def readString (t : Text) : Read Text :=
  match t with
  | '"' :: rest =>
    if (triple '"').isPrefixOf t then readMultiline '"' (t.drop 3)
    else readBasic false (rest.length + 1) rest
  | '\'' :: rest =>
    if (triple '\'').isPrefixOf t then readMultiline '\'' (t.drop 3) else readLiteral rest
  | _ => .error .malformed

/-! ## Keys -/

/-- A path of keys. -/
abbrev Key := List Text

/-- A character of a key without quotes. -/
def isBareKeyChar (c : Char) : Bool := c.isAlphanum || c == '-' || c == '_'

/-- A character that a key can start with. -/
def startsKey (c : Char) : Bool := isBareKeyChar c || c == '"' || c == '\''

/-- Reads one part of a key. -/
def readKeyPart (t : Text) : Read Text :=
  match t with
  | [] => .error .malformed
  | c :: rest =>
    if isBareKeyChar c then .ok (t.takeWhile isBareKeyChar, t.dropWhile isBareKeyChar)
    else if c = '\'' then readLiteral rest
    else if c = '"' then readBasic false (rest.length + 1) rest
    else .error .malformed

/-- Reads a key, its parts between dots, and skips the padding after it;
`fuel` is the length of the text at least. -/
def readKey : Nat → Text → Read Key
  | 0, _ => .error .malformed
  | fuel + 1, t =>
    match readKeyPart t with
    | .error e => .error e
    | .ok (part, after) =>
      match skipPadding after with
      | '.' :: rest => (readKey fuel (skipPadding rest)).map fun (key, after) => (part :: key, after)
      | after => .ok ([part], after)

/-! ## Numbers -/

/-- Takes digits, with single underscores allowed between two of them. -/
def takeDigits (p : Char → Bool) : Text → Text × Text
  | [] => ([], [])
  | c :: rest =>
    if p c then
      let (ds, after) := takeDigits p rest
      (c :: ds, after)
    else if c = '_' then
      match rest with
      | d :: _ => if p d then takeDigits p rest else ([], c :: rest)
      | [] => ([], [c])
    else ([], c :: rest)

/-- Digits that do not start with an underscore, if there are any. -/
def takeDigits? (p : Char → Bool) (t : Text) : Option (Text × Text) :=
  match t with
  | c :: _ => if p c then some (takeDigits p t) else none
  | [] => none

/-- The value of a digit of any base up to sixteen. -/
def digitOf (c : Char) : Nat :=
  if c.isDigit then c.toNat - 0x30 else c.toLower.toNat - 0x61 + 10

/-- The base that a letter after a zero announces, and its digits. -/
def baseOf? : Char → Option (Nat × (Char → Bool))
  | 'x' => some (16, fun c => c.isDigit || ('a' ≤ c && c ≤ 'f') || ('A' ≤ c && c ≤ 'F'))
  | 'b' => some (2, fun c => c == '0' || c == '1')
  | 'o' => some (8, fun c => '0' ≤ c && c ≤ '7')
  | _ => none

/-- A whole number in a base that is announced. -/
def readBased? (t : Text) : Option (Nat × Text) :=
  match t with
  | '0' :: mark :: rest =>
    (baseOf? mark).bind fun (base, p) =>
      (takeDigits? p rest).map fun (ds, after) =>
        (ds.foldl (fun n c => n * base + digitOf c) 0, after)
  | _ => none

/-- The whole digits of a decimal number: a zero alone, or digits that start
with another. -/
def takeWhole? (t : Text) : Option (Text × Text) :=
  match t with
  | '0' :: rest => some (['0'], rest)
  | _ => takeDigits? Char.isDigit t

/-- The fraction after a point, if there is one. -/
def takeFraction (t : Text) : Option (Text × Text) :=
  match t with
  | '.' :: rest => takeDigits? Char.isDigit rest
  | _ => none

/-- The exponent after its mark, if there is one. -/
def takeExponent (t : Text) : Option (Int × Text) :=
  match t with
  | mark :: rest =>
    if mark = 'e' ∨ mark = 'E' then
      let (negative, ds) := Binary64.takeSign rest
      (takeDigits? Char.isDigit ds).map fun (ds, after) =>
        (if negative then -(digitsValue ds : Int) else digitsValue ds, after)
    else none
  | [] => none

/-- Reads a number, if one stands here. A number with a fraction or an
exponent is a floating-point number. -/
def readNumber? (t : Text) : Option (Read Value) :=
  match readBased? t with
  | some (n, after) => some (.ok (.integer n, after))
  | none =>
    let (negative, unsigned) := Binary64.takeSign t
    (takeWhole? unsigned).map fun (whole, after) =>
      let fraction := takeFraction after
      let after := (fraction.map (·.2)).getD after
      let exponent := takeExponent after
      let after := (exponent.map (·.2)).getD after
      if fraction.isSome || exponent.isSome then
        let parts : Binary64.DecimalParts :=
          ⟨negative, whole, (fraction.map (·.1)).getD [], (exponent.map (·.1)).getD 0⟩
        .ok (.float parts.value, after)
      else
        match readNumeral whole with
        | .error e => .error (.numeral e)
        | .ok n => .ok (.integer (if negative then -(n : Int) else n), after)

/-- Reads one of the words for a number that is not finite. -/
def readSpecial? (t : Text) : Option (Value × Text) :=
  let (negative, word) := Binary64.takeSign t
  if "inf".toList.isPrefixOf word then some (.float (.infinite negative), word.drop 3)
  else if "nan".toList.isPrefixOf word then some (.float .notANumber, word.drop 3)
  else none

/-! ## Dates and times -/

/-- Takes a number of exactly `width` digits between two bounds. -/
def takeFixed (width low high : Nat) (t : Text) : Option (Nat × Text) :=
  let ds := t.take width
  let n := digitsValue ds
  if ds.length = width ∧ ds.all Char.isDigit ∧ low ≤ n ∧ n ≤ high then some (n, t.drop width) else none

/-- Takes one character. -/
def takeMark (p : Char → Bool) (t : Text) : Option Text :=
  match t with
  | c :: rest => if p c then some rest else none
  | [] => none

/-- The fraction of a second in microseconds; digits past the sixth do not
count. -/
def takeMicros (t : Text) : Nat × Text :=
  match t with
  | '.' :: rest =>
    let ds := rest.takeWhile Char.isDigit
    if ds.isEmpty then (0, t)
    else
      let six := ds.take 6
      (digitsValue six * Nat.pow 10 (6 - six.length), rest.dropWhile Char.isDigit)
  | _ => (0, t)

/-- A time of day. -/
def takeTime (t : Text) : Option (Time × Text) := do
  let (hour, t) ← takeFixed 2 0 23 t
  let (minute, t) ← takeFixed 2 0 59 (← takeMark (· == ':') t)
  let (second, t) ← takeFixed 2 0 59 (← takeMark (· == ':') t)
  let (micros, t) := takeMicros t
  return (⟨hour, minute, second, micros⟩, t)

/-- A date. Whether the month has the day is not looked at here. -/
def takeDate (t : Text) : Option (Date × Text) := do
  let (year, t) ← takeFixed 4 0 9999 t
  let (month, t) ← takeFixed 2 1 12 (← takeMark (· == '-') t)
  let (day, t) ← takeFixed 2 1 31 (← takeMark (· == '-') t)
  return (⟨year, month, day⟩, t)

/-- An offset in minutes. -/
def takeOffset (t : Text) : Option (Int × Text) :=
  match t with
  | 'Z' :: rest | 'z' :: rest => some (0, rest)
  | sign :: rest =>
    if sign = '+' ∨ sign = '-' then do
      let (hour, t) ← takeFixed 2 0 23 rest
      let (minute, t) ← takeFixed 2 0 59 (← takeMark (· == ':') t)
      let n : Int := hour * 60 + minute
      return (if sign = '-' then -n else n, t)
    else none
  | [] => none

/-- Reads a date, with a time of day and an offset if they follow, or a time
of day alone. -/
def readDateTime? (t : Text) : Option (Read Value) :=
  match takeDate t with
  | some (d, after) =>
    let withTime := (takeMark (fun c => c == 'T' || c == 't' || c == ' ') after).bind takeTime
    let (v, after) : Value × Text :=
      match withTime with
      | none => (.date d, after)
      | some (time, after) =>
        match takeOffset after with
        | none => (.dateTime d time none, after)
        | some (offset, after) => (.dateTime d time (some offset), after)
    some (if d.isValid then .ok (v, after) else .error .malformed)
  | none => (takeTime t).map fun (time, after) => .ok (.time time, after)

end Toml

end PhraseGrammar
