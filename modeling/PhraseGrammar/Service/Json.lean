/-
JSON as the service writes it: no blanks, members in the order they are given,
and in texts only the quote, the backslash and the control characters below
the space are escaped.
-/
import PhraseGrammar.Numeral
import PhraseGrammar.Text.Quoted

namespace PhraseGrammar

/-- A JSON value with whole numbers only. -/
inductive Json
  | null
  | number (n : Int)
  | string (t : Text)
  | array (items : List Json)
  | object (members : List (Text × Json))

namespace Json

/-- A character of a text. -/
def escapedChar (c : Char) : Text :=
  if c = '"' then ['\\', '"']
  else if c = '\\' then ['\\', '\\']
  else if c = '\n' then ['\\', 'n']
  else if c = '\r' then ['\\', 'r']
  else if c = '\t' then ['\\', 't']
  else if c = '\x08' then ['\\', 'b']
  else if c = '\x0c' then ['\\', 'f']
  else if c.toNat < 0x20 then '\\' :: 'u' :: hexDigits 4 c.toNat
  else [c]

/-- A text between quotes. -/
def stringText (t : Text) : Text := '"' :: t.flatMap escapedChar ++ ['"']

mutual

/-- The text of a value. -/
def text : Json → Text
  | .null => "null".toList
  | .number n => signedNumeral n
  | .string t => stringText t
  | .array items => '[' :: itemsText items ++ [']']
  | .object members => openBrace :: membersText members ++ [closeBrace]

/-- The items of an array with commas between them. -/
def itemsText : List Json → Text
  | [] => []
  | [v] => v.text
  | v :: rest => v.text ++ ',' :: itemsText rest

/-- The members of an object with commas between them. -/
def membersText : List (Text × Json) → Text
  | [] => []
  | [(key, v)] => stringText key ++ ':' :: v.text
  | (key, v) :: rest => stringText key ++ ':' :: v.text ++ ',' :: membersText rest

end

/-- A text, or null. -/
def ofText? : Option Text → Json
  | none => .null
  | some t => .string t

end Json

end PhraseGrammar
