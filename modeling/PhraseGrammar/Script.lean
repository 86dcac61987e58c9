/-
The phrase script: text that fills a store. A logical line that starts with
`*` is a header and names the rule for the values after it; every other line
is a value, with its weight in front if it starts with digits and a colon.
Lines without a value are skipped, so a header alone creates no rule.

Reading stops at the first weight that is too long to be read. What the lines
before it added stays in the store.
-/
import PhraseGrammar.Store
import PhraseGrammar.Numeral
import PhraseGrammar.Text.Escape
import PhraseGrammar.Text.Lines

namespace PhraseGrammar

/-- Splits the weight off a value: its digits and what follows the colon. -/
def splitWeight? (value : Text) : Option (Text × Text) :=
  let digits := value.takeWhile Char.isDigit
  match digits, value.dropWhile Char.isDigit with
  | _ :: _, ':' :: rest => some (digits, rest)
  | _, _ => none

/-- The value of a line and its weight, which is one unless the line says
otherwise. -/
def readValue (line : Text) : Except NumeralError (Text × Nat) :=
  let value := unescape line
  match splitWeight? value with
  | none => .ok (value, 1)
  | some (digits, rest) => (readNumeral digits).map fun weight => (rest, weight)

/-- What a logical line of a script is. -/
inductive ScriptLine
  | header (name : Text)
  | value (text : Text) (weight : Nat)
  deriving DecidableEq

/-- Reads a logical line. -/
def ScriptLine.read (line : Text) : Except NumeralError ScriptLine :=
  match line with
  | '*' :: rest => .ok (.header (unescape rest))
  | _ => (readValue line).map fun (text, weight) => .value text weight

/-- How reading a script ended: the store, the number of values that were
added, and the fault that stopped it, if one did. -/
structure Reading where
  store : Store
  added : Nat
  fault : Option NumeralError
  deriving DecidableEq

/-- Reads logical lines into a store. `rule` is the name in the last header. -/
def readLines (store : Store) (rule : Text) (added : Nat) : List Text → Reading
  | [] => ⟨store, added, none⟩
  | line :: rest =>
    match ScriptLine.read line with
    | .error e => ⟨store, added, some e⟩
    | .ok (.header name) => readLines store name added rest
    | .ok (.value text weight) =>
      if text.isEmpty then readLines store rule added rest
      else readLines (store.add rule text weight) rule (added + 1) rest

/-- Reads a script into a store. Values before the first header belong to the
rule of the empty name. -/
def Store.read (store : Store) (script : Text) : Reading :=
  readLines store [] 0 (logicalLines script)

/-- The store that a script makes from nothing. -/
def Store.ofScript (script : Text) : Except NumeralError Store :=
  let r := Store.empty.read script
  match r.fault with
  | none => .ok r.store
  | some e => .error e

/-! ## Writing -/

/-- The lines that a rule is written in: its header, then an option a line. -/
def Rule.dumpLines (r : Rule) : Except NumeralError (List Text) :=
  (r.options.mapM fun o =>
      (writeNumeral o.weight).map fun digits => digits ++ ':' :: escape o.value).map
    fun lines => ('*' :: ' ' :: escapeName r.name) :: lines

/-- The store as a script, rules in the order of their creation. There is no
line feed at the end. -/
def Store.dump (s : Store) : Except NumeralError Text :=
  (s.rules.mapM fun (e : Text × Rule) => e.2.dumpLines).map fun blocks =>
    joinWith ['\n'] blocks.flatten

end PhraseGrammar
