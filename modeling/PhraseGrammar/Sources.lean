/-
The two ways of filling a store from files. `loadFiles` stops at the first file
that cannot be read; `readSources` goes on, counts the failures and reports
each, and reads the standard input for the name `-`. A script that cannot be
read to its end stops both.
-/
import PhraseGrammar.Files
import PhraseGrammar.Script

namespace PhraseGrammar

/-! ## Files that must be there -/

/-- Why a store could not be filled from files. -/
inductive LoadError
  | read (e : ReadError)
  | numeral (e : NumeralError)
  deriving DecidableEq

def LoadError.message : LoadError → Text
  | .read e => e.message
  | .numeral e => e.message

/-- Reads files into a store, one after the other, up to the first fault. -/
def loadFiles (tree : FileTree) (store : Store) : List Path → Store × Option LoadError
  | [] => (store, none)
  | p :: rest =>
    match tree.readText p with
    | .error e => (store, some (.read e))
    | .ok text =>
      let r := store.read text
      match r.fault with
      | some e => (r.store, some (.numeral e))
      | none => loadFiles tree r.store rest

/-! ## Files that may be missing -/

/-- What is reported while sources are read. -/
inductive SourceReport
  | unreadable (name : Text) (e : ReadError)
  | parsing (name : Text)
  | parsed (values rules : Nat)
  deriving DecidableEq

/-- How reading sources ended: the store, the rest of the standard input, how
many sources could not be read, what was reported, and the fault that stopped
it, if one did. -/
structure SourcesRead where
  store : Store
  stdin : Text
  failures : Nat
  reports : List SourceReport
  fault : Option LoadError

/-- The name of the standard input. -/
def stdinName : Text := ['-']

/-- A source by name, and the standard input after it was read. -/
def readSource (tree : FileTree) (stdin : Text) (name : Text) : Except ReadError Text × Text :=
  if name = stdinName then (.ok stdin, []) else (tree.readText (Path.ofText name), stdin)

/-- The name of a source in reports. -/
def sourceLabel (name : Text) : Text := if name = stdinName then "stdin".toList else name

/-- Reads sources into a store, one after the other. -/
def readSources (tree : FileTree) (store : Store) (stdin : Text) : List Text → SourcesRead
  | [] => ⟨store, stdin, 0, [], none⟩
  | name :: rest =>
    match readSource tree stdin name with
    | (.error .nulInPath, stdin) => ⟨store, stdin, 0, [], some (.read .nulInPath)⟩
    | (.error e, stdin) =>
      let after := readSources tree store stdin rest
      { after with
        failures := after.failures + 1
        reports := .unreadable name e :: after.reports }
    | (.ok text, stdin) =>
      let r := store.read text
      match r.fault with
      | some e => ⟨r.store, stdin, 0, [.parsing (sourceLabel name)], some (.numeral e)⟩
      | none =>
        let after := readSources tree r.store stdin rest
        { after with
          reports := .parsing (sourceLabel name) :: .parsed r.added r.store.rules.length ::
            after.reports }

end PhraseGrammar
