/-
The program. It copies what the command line can lead to from the disk into a
tree of files, reads the standard input if that is a source, runs the command
and writes what it wrote. Whether a file is needed is asked of the command:
a grammar file that the settings miss is copied, and they are read again.
-/
import PhraseGrammar.CommandLine

namespace PhraseGrammar

/-- What stands at a place on the disk. What cannot be read is not there. -/
def entryOnDisk (place : List Text) : IO (Option Entry) := do
  try
    let octets ← IO.FS.readBinFile (String.ofList (Path.mk ['/'] place).text)
    return some (.file octets.toList)
  catch
    | .inappropriateType .. => return some .directory
    | _ => return none

/-- Copies what stands on the way to a path and at its end. -/
def copyIn (tree : FileTree) (p : Path) : IO FileTree :=
  if p.hasNul then return tree
  else
    (p.places tree.cwd).foldlM (fun (t : FileTree) place => do
      if (t.entryAt? place).isSome then return t
      return match ← entryOnDisk place with
        | some e => t.putEntry place e
        | none => t) tree

/-- Reads the settings, copying the grammar files that they miss for as long as
they are on the disk. -/
partial def copySettings (tree : FileTree) (p : Path) : IO FileTree := do
  match Settings.load tree p with
  | .error (.values (.grammarMissing q)) =>
    let tree ← copyIn tree q
    match tree.holds q with
    | .ok true => copySettings tree p
    | _ => return tree
  | _ => return tree

/-- The files that the arguments can lead to. -/
def Arguments.reachable (a : Arguments) : IO FileTree := do
  let cwd := (Path.ofText (← IO.currentDir).toString.toList).parts
  let tree ← match a.config with
    | .absent | .blank => pure (FileTree.empty cwd)
    | .value p => copySettings (← copyIn (.empty cwd) p) p
  a.files.foldlM (fun t name => copyIn t (Path.ofText name)) tree

/-- The octets of the standard input, up to its end. -/
partial def readInput (input : IO.FS.Stream) (before : ByteArray) : IO ByteArray := do
  let more ← input.read 65536
  if more.isEmpty then return before else readInput input (before ++ more)

/-- The standard input, if the arguments make it a source. -/
def Arguments.input (a : Arguments) (tree : FileTree) : IO (Except Utf8Error Text) := do
  match a.settings tree with
  | .error _ => return .ok []
  | .ok settings =>
    if (a.sources settings).contains stdinName then
      return (decodeUtf8 (← readInput (← IO.getStdin) .empty).toList).map normalizeNewlines
    else return .ok []

/-- A number that nobody can foresee. -/
def entropy : IO Int := do
  return (← IO.getRandomBytes 32).toList.foldl (fun (n : Int) b => n * 256 + b.toNat) 0

/-- Writes what a command wrote, and gives the code that it ended with. -/
def CommandResult.write (r : CommandResult) : IO UInt32 := do
  (← IO.getStdout).putStr (String.ofList r.stdout)
  (← IO.getStderr).putStr (String.ofList r.stderr)
  match r.exit with
  | .code n => return n.toUInt32
  | .fault f => do
    (← IO.getStderr).putStrLn (String.ofList f.message)
    return 1

end PhraseGrammar

open PhraseGrammar in
/-- Runs a command line. -/
def main (args : List String) : IO UInt32 := do
  let argv := args.map String.toList
  match phraseCommand.read .none argv with
  | .error _ => (runCommand ⟨.empty [], [], 0⟩ argv).write
  | .ok a =>
    let tree ← a.reachable
    match ← a.input tree with
    | .ok stdin => (a.run ⟨tree, stdin, ← entropy⟩).write
    | .error e =>
      CommandResult.write ⟨.code 1, [], (SourceReport.unreadable stdinName (.encoding e)).line false⟩
