/-
Lines of a phrase script. A raw line ends at a line feed, at a carriage return
or at both together. A raw line that starts with `#` is a comment and is
dropped; one that ends in an odd number of backslashes goes on in the next
raw line, which may itself go on. What is left are the logical lines.
-/
import PhraseGrammar.Text.Basic

namespace PhraseGrammar

/-- Ends every line in one line feed: CR LF counts as one, a lone CR as one. -/
def normalizeNewlines : Text → Text
  | [] => []
  | [c] => if c = '\r' then ['\n'] else [c]
  | c :: d :: rest =>
    if c = '\r' then
      if d = '\n' then '\n' :: normalizeNewlines rest else '\n' :: normalizeNewlines (d :: rest)
    else c :: normalizeNewlines (d :: rest)

/-- Makes a line feed of every carriage return and the line feed after it. -/
def replaceReturnFeeds : Text → Text
  | [] => []
  | [c] => [c]
  | c :: d :: rest =>
    if c = '\r' ∧ d = '\n' then '\n' :: replaceReturnFeeds rest
    else c :: replaceReturnFeeds (d :: rest)

/-- The pieces between line feeds. -/
def cutAtLineFeeds : Text → List Text
  | [] => [[]]
  | c :: rest =>
    if c = '\n' then [] :: cutAtLineFeeds rest else (cutAtLineFeeds rest).modifyHead (c :: ·)

/-- The raw lines of a text. The empty text has one, which is empty. -/
def splitLines (t : Text) : List Text := cutAtLineFeeds (normalizeNewlines t)

/-- Drops one line feed at the end. -/
def dropFinalLineFeed (t : Text) : Text := if t.getLast? = some '\n' then t.dropLast else t

/-- The length of the run of backslashes at the end. -/
def trailingBackslashes (t : Text) : Nat := (t.reverse.takeWhile (· == '\\')).length

/-- An odd number of backslashes at the end, before at most one line feed. -/
def isContinued (line : Text) : Bool := trailingBackslashes (dropFinalLineFeed line) % 2 == 1

/-- A raw line that starts with `#`. -/
def isComment (line : Text) : Bool := line.head? == some '#'

/-- Joins raw lines into logical ones. `pending` is the text of a logical line
that the raw lines so far have left open, without its last backslash. -/
def joinLines (pending : Option Text) : List Text → List Text
  | [] => pending.toList
  | raw :: rest =>
    if pending.isNone && isComment raw then joinLines none rest
    else
      let line := pending.getD [] ++ raw
      if isContinued line then joinLines (some line.dropLast) rest else line :: joinLines none rest

/-- The logical lines of a text. -/
def logicalLines (t : Text) : List Text := joinLines none (splitLines t)

theorem cutAtLineFeeds_ne_nil (t : Text) : cutAtLineFeeds t ≠ [] := by
  cases t with
  | nil => simp [cutAtLineFeeds]
  | cons c rest =>
    simp only [cutAtLineFeeds]
    split
    · simp
    · simp [cutAtLineFeeds_ne_nil rest]

end PhraseGrammar
