/-
Reading a configuration: arrays, tables on one line, and the lines of a
document. A header opens a table and the lines after it fill it; a header in
double brackets appends a table to an array. What was written as a whole may
not be added to, and no table is opened twice.
-/
import PhraseGrammar.Text.Lines
import PhraseGrammar.Toml.Scalar

namespace PhraseGrammar

namespace Toml

/-- The room for nesting, in calls: of the thousand that the stack has room for, some are
in use when a value is read. An array takes two, a table on one line three. -/
def nestingRoom : Nat := 980

/-- The key has one of the others in front of it, or is one of them. -/
def liesUnder (others : List Key) (key : Key) : Bool := others.any (·.isPrefixOf key)

/-! ## Values -/

mutual

/-- Reads a value. `fuel` bounds the steps, and is large enough if it is twice
the length of the text; `room` is what is left for nesting. -/
def readValue (fuel : Nat) (room : Nat) (t : Text) : Read Value :=
  match fuel with
  | 0 => .error .malformed
  | fuel + 1 =>
    match t with
    | '"' :: _ | '\'' :: _ => (readString t).map fun (s, after) => (.string s, after)
    | '[' :: rest =>
      if room < 2 then .error .tooDeep
      else
        match skipFiller (rest.length + 1) rest with
        | .error e => .error e
        | .ok (']' :: after) => .ok (.array [], after)
        | .ok after =>
          (readItems fuel (room - 2) after).map fun (items, after) => (.array items, after)
    | '\x7b' :: rest =>
      if room < 3 then .error .tooDeep
      else
        match skipPadding rest with
        | '\x7d' :: after => .ok (.table [], after)
        | after =>
          (readPairs fuel (room - 3) [] [] after).map fun (entries, after) => (.table entries, after)
    | _ =>
      if "true".toList.isPrefixOf t then .ok (.boolean true, t.drop 4)
      else if "false".toList.isPrefixOf t then .ok (.boolean false, t.drop 5)
      else
        match readDateTime? t with
        | some r => r
        | none =>
          match readNumber? t with
          | some r => r
          | none =>
            match readSpecial? t with
            | some r => .ok r
            | none => .error .malformed

/-- Reads the items of an array up to its closing bracket. -/
def readItems (fuel : Nat) (room : Nat) (t : Text) : Read (List Value) :=
  match fuel with
  | 0 => .error .malformed
  | fuel + 1 =>
    match readValue fuel room t with
    | .error e => .error e
    | .ok (v, after) =>
      match skipFiller (after.length + 1) after with
      | .error e => .error e
      | .ok (']' :: after) => .ok ([v], after)
      | .ok (',' :: after) =>
        match skipFiller (after.length + 1) after with
        | .error e => .error e
        | .ok (']' :: after) => .ok ([v], after)
        | .ok after => (readItems fuel room after).map fun (vs, after) => (v :: vs, after)
      | .ok _ => .error .malformed

/-- Reads the pairs of a table on one line up to its closing brace. `closed`
are the keys whose values are written as a whole. -/
def readPairs (fuel : Nat) (room : Nat) (closed : List Key) (entries : Table) (t : Text) : Read Table :=
  match fuel with
  | 0 => .error .malformed
  | fuel + 1 =>
    match readKey (t.length + 1) t with
    | .error e => .error e
    | .ok (key, '=' :: after) =>
      match readValue fuel room (skipPadding after) with
      | .error e => .error e
      | .ok (v, after) =>
        if liesUnder closed key then .error .malformed
        else
          match Table.changeAt false (Table.putNew (key.getLastD []) v) key.dropLast entries with
          | none => .error .malformed
          | some entries =>
            match skipPadding after with
            | '\x7d' :: after => .ok (entries, after)
            | ',' :: after =>
              readPairs fuel room (if v.isContainer then key :: closed else closed) entries
                (skipPadding after)
            | _ => .error .malformed
    | .ok _ => .error .malformed

end

/-! ## Documents -/

/-- A document that is being read: its tables, the keys of tables that are
open by a header, the keys whose values are written as a whole, the keys that
dotted names went through since the last header, and that header. -/
structure Draft where
  root : Table
  opened : List Key
  closed : List Key
  passed : List Key
  header : Key

/-- A document before its first line. -/
def Draft.start : Draft := ⟨[], [], [], [], []⟩

/-- Tables that dotted names went through count as open once a header comes. -/
def Draft.settle (d : Draft) : Draft := { d with opened := d.passed ++ d.opened, passed := [] }

/-- Opens a table. -/
def Draft.openTable (d : Draft) (key : Key) : Option Draft :=
  if d.opened.contains key || liesUnder d.closed key then none
  else
    (Table.changeAt true some key d.root).map fun root =>
      { d with root, opened := key :: d.opened, header := key }

/-- Appends a table to an array and opens it. What was open below the last
item may be opened anew. -/
def Draft.openItem (d : Draft) (key : Key) : Option Draft :=
  if liesUnder d.closed key then none
  else
    (Table.changeAt true (Table.appendTable (key.getLastD [])) key.dropLast d.root).map fun root =>
      { d with
        root
        opened := key :: d.opened.filter fun k => !key.isPrefixOf k
        closed := d.closed.filter fun k => !key.isPrefixOf k
        header := key }

/-- The keys of the tables that a dotted name goes through, below a header. -/
def passedKeys (header key : Key) : List Key :=
  (List.range (key.length - 1)).map fun i => header ++ key.take (i + 1)

/-- Puts a value at a key below the last header. -/
def Draft.assign (d : Draft) (key : Key) (v : Value) : Option Draft :=
  let passed := passedKeys d.header key
  let parent := d.header ++ key.dropLast
  if passed.any d.opened.contains || liesUnder d.closed parent then none
  else
    (Table.changeAt true (Table.putNew (key.getLastD []) v) parent d.root).map fun root =>
      { d with
        root
        closed := if v.isContainer then (d.header ++ key) :: d.closed else d.closed
        passed := passed ++ d.passed }

/-- A step that must succeed. -/
def demand {α : Type} (r : Option α) : Except Fault α :=
  match r with
  | some a => .ok a
  | none => .error .malformed

/-- Reads a header after its first bracket. -/
def readHeader (d : Draft) (t : Text) : Read Draft :=
  let d := d.settle
  match t with
  | '[' :: rest =>
    match readKey (rest.length + 1) (skipPadding rest) with
    | .error e => .error e
    | .ok (key, after) =>
      (demand (d.openItem key)).bind fun d =>
        match after with
        | ']' :: ']' :: after => .ok (d, after)
        | _ => .error .malformed
  | rest =>
    match readKey (rest.length + 1) (skipPadding rest) with
    | .error e => .error e
    | .ok (key, after) =>
      (demand (d.openTable key)).bind fun d =>
        match after with
        | ']' :: after => .ok (d, after)
        | _ => .error .malformed

/-- Reads a key and its value. -/
def readPair (d : Draft) (t : Text) : Read Draft :=
  match readKey (t.length + 1) t with
  | .error e => .error e
  | .ok (key, '=' :: after) =>
    let after := skipPadding after
    match readValue (2 * after.length + 2) nestingRoom after with
    | .error e => .error e
    | .ok (v, after) => (demand (d.assign key v)).map fun d => (d, after)
  | .ok _ => .error .malformed

/-- Reads the lines of a document; `fuel` is more than the length of the
text. -/
def readStatements : Nat → Draft → Text → Except Fault Table
  | 0, _, _ => .error .malformed
  | fuel + 1, d, t =>
    match skipPadding t with
    | [] => .ok d.root
    | '\n' :: rest => readStatements fuel d rest
    | c :: rest =>
      let statement : Read Draft :=
        if startsKey c then readPair d (c :: rest)
        else if c = '[' then readHeader d rest
        else if c = '#' then .ok (d, c :: rest)
        else .error .malformed
      match statement with
      | .error e => .error e
      | .ok (d, after) =>
        match skipComment (skipPadding after) with
        | .error e => .error e
        | .ok [] => .ok d.root
        | .ok ('\n' :: rest) => readStatements fuel d rest
        | .ok _ => .error .malformed

/-- Reads a document. A carriage return before a line feed does not count. -/
def read (t : Text) : Except Fault Table :=
  let t := replaceReturnFeeds t
  readStatements (t.length + 1) Draft.start t

end Toml

end PhraseGrammar
