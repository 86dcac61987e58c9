/-
The command that prints phrases. It reads grammar files, or the standard
input, and prints the rules that it read or as many phrases as asked for.
What the command line leaves open is taken from the configuration, if one is
named.

The command is a function of the files, the standard input and a number to
seed from when no seed is given: what it writes and how it ends is all there
is to it.
-/
import PhraseGrammar.Log
import PhraseGrammar.Options
import PhraseGrammar.Settings
import PhraseGrammar.Source
import PhraseGrammar.Text.Integer

namespace PhraseGrammar

/-! ## Arguments -/

/-- The arguments of the command. -/
structure Arguments where
  files : List Text
  dump : Bool
  rule : Given Text
  count : Given Int
  seed : Given Int
  limit : Given Int
  config : Given Path
  verbose : Bool

/-- Nothing on the command line. -/
def Arguments.none : Arguments := ⟨[], false, .absent, .absent, .absent, .absent, .absent, false⟩

/-- A value that has to be a whole number. -/
def wholeValue {σ : Type} (set : Given Int → σ → σ) : Effect σ :=
  .value fun
    | .none, a => .ok (set .blank a)
    | .some t, a =>
      match readTypedInteger? t with
      | some n => .ok (set (.value n) a)
      | .none => .error ("invalid int value: ".toList ++ quoted t)

/-- A value that may be any text, of which `read` makes something. -/
def textValue {σ α : Type} (read : Text → α) (set : Given α → σ → σ) : Effect σ :=
  .value fun
    | .none, a => .ok (set .blank a)
    | .some t, a => .ok (set (.value (read t)) a)

/-- The command, with its switches in the order of its help. -/
def phraseCommand : Command Arguments where
  name := "psr".toList
  usage :=
    ("usage: psr [-h] [-d] [-r RULE] [-n COUNT] [--seed SEED]\n" ++
     "           [--recursion-limit RECURSION_LIMIT] [--config CONFIG] [-v]\n" ++
     "           [files ...]\n").toList
  manual :=
    ("\nProcess PSR files or read from stdin, then print a generated phrase.\n" ++
     "\npositional arguments:\n" ++
     "  files                 PSR files to load, '-' for stdin.\n" ++
     "\noptions:\n" ++
     "  -h, --help            show this help message and exit\n" ++
     "  -d, --debug           Dump the parsed rules instead of generating.\n" ++
     "  -r RULE, --rule RULE  Rule to generate from (defaults to the first rule\n" ++
     "                        defined).\n" ++
     "  -n COUNT, --count COUNT\n" ++
     "                        Number of phrases to generate.\n" ++
     "  --seed SEED           Seed for the random generator.\n" ++
     "  --recursion-limit RECURSION_LIMIT\n" ++
     "                        Fail when rule expansion nests deeper than this.\n" ++
     "  --config CONFIG       Path to a TOML config file.\n" ++
     "  -v, --verbose         Enable debug logging.\n").toList
  switches :=
    [⟨["-h".toList, "--help".toList], .help⟩,
     ⟨["-d".toList, "--debug".toList], .flag fun a => { a with dump := true }⟩,
     ⟨["-r".toList, "--rule".toList], textValue id fun v a => { a with rule := v }⟩,
     ⟨["-n".toList, "--count".toList], wholeValue fun v a => { a with count := v }⟩,
     ⟨["--seed".toList], wholeValue fun v a => { a with seed := v }⟩,
     ⟨["--recursion-limit".toList], wholeValue fun v a => { a with limit := v }⟩,
     ⟨["--config".toList], textValue Path.ofText fun v a => { a with config := v }⟩,
     ⟨["-v".toList, "--verbose".toList], .flag fun a => { a with verbose := true }⟩]
  operands := some fun files a => { a with files }

/-! ## Running -/

/-- What is outside of the command. -/
structure Environment where
  tree : FileTree
  stdin : Text
  entropy : Int

/-- What a blank was taken for: a number to compare, the name of a rule, a
seed, a path to open or a path to resolve. -/
inductive BlankUse
  | number
  | rule
  | seed
  | path
  | location
  deriving DecidableEq

def BlankUse.message : BlankUse → Text
  | .number => "'<' not supported between instances of 'list' and 'int'".toList
  | .rule => "unhashable type: 'list'".toList
  | .seed =>
    ("The only supported seed types are: None,\n" ++
     "int, float, str, bytes, and bytearray.").toList
  | .path => "expected str, bytes or os.PathLike object, not list".toList
  | .location => "'list' object has no attribute 'resolve'".toList

/-- A fault that the command does not turn into a message of its own. -/
inductive CommandFault
  | settings (e : SettingsError)
  | load (e : LoadError)
  | numeral (e : NumeralError)
  | blank (use : BlankUse)
  deriving DecidableEq

def CommandFault.message : CommandFault → Text
  | .settings e => e.message
  | .load e => e.message
  | .numeral e => e.message
  | .blank use => use.message

/-- How a command ended: with a code, or in a fault. -/
inductive Exit
  | code (n : Nat)
  | fault (f : CommandFault)
  deriving DecidableEq

/-- What a command wrote and how it ended. -/
structure CommandResult where
  exit : Exit
  stdout : Text
  stderr : Text
  deriving DecidableEq

/-- The command reports the error by itself; other errors end it. -/
def SettingsError.isReported : SettingsError → Bool
  | .missing _ | .unreadable _ | .malformed _ => true
  | .values (.invalid _) | .values (.grammarMissing _) | .values (.grammarUnnamable _) => true
  | .encoding _ | .numeral _ | .tooDeep => false
  | .values .nulInPath | .values (.hostWithoutText _) => false

/-- The command reports a fault in its settings by itself. -/
def CommandFault.isReported : CommandFault → Bool
  | .settings e => e.isReported
  | .load _ | .numeral _ | .blank _ => false

/-- What a command that ends in a fault has written by then. -/
def CommandResult.ofFault (f : CommandFault) (stderr : Text) : CommandResult := ⟨.fault f, [], stderr⟩

/-- The settings for generation: those of the configuration that is named. -/
def Arguments.settings (a : Arguments) (tree : FileTree) : Except CommandFault GenerationSettings :=
  match a.config with
  | .absent => .ok .default
  | .blank => .error (.blank .path)
  | .value p =>
    match Settings.load tree p with
    | .ok s => .ok s.generation
    | .error e => .error (.settings e)

/-- The sources to read: those on the command line, or those of the settings,
or the standard input. -/
def Arguments.sources (a : Arguments) (settings : GenerationSettings) : List Text :=
  if !a.files.isEmpty then a.files
  else if !settings.files.isEmpty then settings.files.map Path.text
  else [stdinName]

/-- The message about an expansion that failed. -/
def complaintAbout : ExpansionError → Text
  | .stackExhausted =>
    "rule expansion recursed too deeply; set --recursion-limit to bound it.".toList
  | e => e.message

/-- What a session printed and how it ended. -/
def Session.result {σ : Type} (s : Session σ) (verbose : Bool) : CommandResult :=
  let phrases := s.outcomes.flatMap fun
    | .ok t => t ++ ['\n']
    | .error _ => []
  let log := s.notices.flatMap (·.line verbose)
  match s.outcomes.getLast? with
  | some (.error e) => ⟨.code 1, phrases, log ++ "Error: ".toList ++ complaintAbout e ++ ['\n']⟩
  | _ => ⟨.code 0, phrases, log⟩

/-- Generates and prints `count` phrases with a generator. A rule that is left
blank is a fault of the first. -/
def Arguments.print (a : Arguments) (settings : GenerationSettings) (g : Generator) (source : Source)
    (count : Nat) : CommandResult :=
  match a.rule.resolve settings.rule with
  | .none => .ofFault (.blank .rule) (blankRuleLine a.verbose)
  | some rule => (g.session Source.next (fun _ => true) rule count source).result a.verbose

/-- Generates and prints phrases. The count is looked at first, then the seed,
the limit and the rule. -/
def Arguments.generate (a : Arguments) (settings : GenerationSettings) (entropy : Int)
    (store : Store) : CommandResult :=
  match a.count.getD settings.count with
  | .none => .ofFault (.blank .number) []
  | some count =>
    if count < 1 then
      ⟨.code 2, [], phraseCommand.misuseText "--count must be at least 1".toList⟩
    else
      match a.seed.resolve settings.seed, a.limit.resolve (settings.limit.map Int.ofNat) with
      | .none, _ => .ofFault (.blank .seed) []
      | _, .none => .ofFault (.blank .number) []
      | some seed, some limit =>
        match Generator.of store limit with
        | .error e => ⟨.code 1, [], "Error: ".toList ++ e.message ++ ['\n']⟩
        | .ok g => a.print settings g (Source.ofSeed (seed.getD entropy)) count.toNat

/-- Prints the rules of a store. -/
def dumpResult (store : Store) : CommandResult :=
  match store.dump with
  | .ok t => ⟨.code 0, t ++ ['\n'], []⟩
  | .error e => .ofFault (.numeral e) []

/-- Reads the sources, and prints the rules or generates. -/
def Arguments.process (a : Arguments) (env : Environment) (settings : GenerationSettings) :
    CommandResult :=
  let r := readSources env.tree .empty env.stdin (a.sources settings)
  let reports := r.reports.flatMap (·.line a.verbose)
  match r.fault with
  | some e => .ofFault (.load e) reports
  | .none =>
    if 0 < r.failures then ⟨.code 1, [], reports⟩
    else
      let result := if a.dump then dumpResult r.store else a.generate settings env.entropy r.store
      { result with stderr := reports ++ result.stderr }

/-- Runs the command with its arguments. -/
def Arguments.run (a : Arguments) (env : Environment) : CommandResult :=
  match a.settings env.tree with
  | .ok settings => a.process env settings
  | .error f =>
    if f.isReported then
      ⟨.code 1, [], "Error loading config: ".toList ++ f.message ++ ['\n']⟩
    else .ofFault f []

/-- Runs a command line. -/
def runCommand (env : Environment) (argv : List Text) : CommandResult :=
  match phraseCommand.read .none argv with
  | .ok a => a.run env
  | .error .help => ⟨.code 0, phraseCommand.helpText, []⟩
  | .error (.misuse message) => ⟨.code 2, [], phraseCommand.misuseText message⟩

end PhraseGrammar
