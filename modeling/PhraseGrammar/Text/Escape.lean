/-
Escapes of the phrase script. A backslash, a line feed, a carriage return and
a tab are written as a backslash and one more character; everything else
stands for itself. Reading is more generous than writing: blanks around the
text are dropped, any other escaped character stands for itself, and a
backslash that ends the text stands for nothing.
-/
import PhraseGrammar.Text.Basic

namespace PhraseGrammar

/-- The written form of one character. -/
def escapeChar (c : Char) : Text :=
  if c = '\\' then ['\\', '\\']
  else if c = '\n' then ['\\', 'n']
  else if c = '\r' then ['\\', 'r']
  else if c = '\t' then ['\\', 't']
  else [c]

/-- The written form of a text. -/
def escape (t : Text) : Text := t.flatMap escapeChar

/-- The character that a backslash before `c` stands for. -/
def unescapeChar (c : Char) : Char :=
  if c = 'n' then '\n' else if c = 'r' then '\r' else if c = 't' then '\t' else c

/-- Resolves escapes from left to right. -/
def resolve : Text → Text
  | [] => []
  | [c] => if c = '\\' then [] else [c]
  | c :: d :: rest =>
    if c = '\\' then unescapeChar d :: resolve rest else c :: resolve (d :: rest)

/-- A space or a tab: what may surround a written text. -/
def isPadding (c : Char) : Bool := c == ' ' || c == '\t'

/-- Drops the padding around a written text and resolves its escapes. -/
def unescape (raw : Text) : Text := resolve (trimBoth isPadding raw)

/-- The written form of a rule name: a leading space takes a backslash, since
a header is trimmed when it is read. -/
def escapeName (name : Text) : Text :=
  match escape name with
  | ' ' :: rest => '\\' :: ' ' :: rest
  | written => written

theorem escape_nil : escape [] = [] := rfl

theorem escape_cons (c : Char) (t : Text) : escape (c :: t) = escapeChar c ++ escape t := by
  simp [escape]

theorem escape_append (t u : Text) : escape (t ++ u) = escape t ++ escape u := by
  simp [escape]

/-- Resolving undoes escaping: every pair that `escapeChar` writes is read back
as the character it was written for. -/
theorem resolve_escape (t : Text) : resolve (escape t) = t := by
  have step : ∀ (c : Char) (u : Text), resolve (escapeChar c ++ u) = c :: resolve u := by
    intro c u
    unfold escapeChar
    split
    · rename_i h; subst h; simp [resolve, unescapeChar]
    split
    · rename_i h; subst h; simp [resolve, unescapeChar]
    split
    · rename_i h; subst h; simp [resolve, unescapeChar]
    split
    · rename_i h; subst h; simp [resolve, unescapeChar]
    · rename_i h _ _ _
      cases u <;> simp [resolve, h]
  induction t with
  | nil => rfl
  | cons c t ih => rw [escape_cons, step, ih]

end PhraseGrammar
