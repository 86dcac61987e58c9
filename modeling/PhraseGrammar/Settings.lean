/-
Settings from a configuration file: which grammar files to read, how to
generate, and where to serve. Every setting may be left out. The checks are
made in one order, and the first that fails is the fault that is reported:
the section for generation, its rule, count, files, seed and limit, the
section for serving and its port.

A grammar file is found from the directory of the configuration file, and has
to be there when the settings are read.
-/
import PhraseGrammar.Files
import PhraseGrammar.Text.Blank
import PhraseGrammar.Toml.Document
import PhraseGrammar.Toml.Printer

namespace PhraseGrammar

/-- Settings for generation. -/
structure GenerationSettings where
  files : List Path
  rule : Option Text
  count : Nat
  seed : Option Int
  limit : Option Nat

/-- Settings for serving. -/
structure ServingSettings where
  host : Text
  port : Int

/-- All settings. -/
structure Settings where
  generation : GenerationSettings
  serving : ServingSettings

def GenerationSettings.default : GenerationSettings := ⟨[], none, 1, none, none⟩

def ServingSettings.default : ServingSettings := ⟨"127.0.0.1".toList, 8000⟩

/-- What holds when there is no configuration. -/
def Settings.default : Settings := ⟨.default, .default⟩

/-! ## Faults -/

/-- The sections of a configuration. -/
inductive Section
  | generation
  | serving
  deriving DecidableEq

/-- The name of a section. -/
def Section.name : Section → Text
  | .generation => "psr".toList
  | .serving => "web".toList

/-- The settings that are whole numbers. -/
inductive NumberSetting
  | count
  | seed
  | limit
  | port
  deriving DecidableEq

/-- The name of a setting in its section. -/
def NumberSetting.key : NumberSetting → Text
  | .count => "count".toList
  | .seed => "seed".toList
  | .limit => "recursion_limit".toList
  | .port => "port".toList

/-- The section of a setting. -/
def NumberSetting.home : NumberSetting → Section
  | .port => .serving
  | _ => .generation

/-- The name of a setting with its section. -/
def NumberSetting.name (s : NumberSetting) : Text := s.home.name ++ '.' :: s.key

/-- A value that its setting does not allow. -/
inductive InvalidSetting
  | notATable (s : Section)
  | ruleNotText
  | notWhole (s : NumberSetting)
  | belowOne (s : NumberSetting)
  | filesNotListed
  | fileNotNamed
  deriving DecidableEq

def InvalidSetting.message : InvalidSetting → Text
  | .notATable s => '[' :: s.name ++ "] must be a table.".toList
  | .ruleNotText => "psr.rule must be a string.".toList
  | .notWhole s => s.name ++ " must be an integer.".toList
  | .belowOne s => s.name ++ " must be at least 1.".toList
  | .filesNotListed => "psr.files must be a string or a list of strings.".toList
  | .fileNotNamed => "psr.files entries must be non-empty strings.".toList

/-- Why the values of a configuration are no settings. -/
inductive SettingsFault
  | invalid (e : InvalidSetting)
  | grammarMissing (path : Path)
  | grammarUnnamable (e : FileError)
  | nulInPath
  | hostWithoutText (e : Toml.TextFault)
  deriving DecidableEq

/-- Why there are no settings at a path. -/
inductive SettingsError
  | missing (path : Path)
  | unreadable (e : FileError)
  | encoding (e : Utf8Error)
  | malformed (path : Path)
  | numeral (e : NumeralError)
  | tooDeep
  | values (e : SettingsFault)
  deriving DecidableEq

def SettingsFault.message : SettingsFault → Text
  | .invalid e => e.message
  | .grammarMissing p => "Grammar file not found: ".toList ++ p.text
  | .grammarUnnamable e => e.message
  | .nulInPath => nulMessage
  | .hostWithoutText e => e.message

def SettingsError.message : SettingsError → Text
  | .missing p => "Config file not found: ".toList ++ p.text
  | .unreadable e => e.message
  | .encoding e => e.message
  | .malformed p => "Malformed config file ".toList ++ p.text
  | .numeral e => e.message
  | .tooDeep => "maximum recursion depth exceeded".toList
  | .values e => e.message

/-! ## Checks -/

/-- A whole number that may be left out. -/
def wholeSetting (s : NumberSetting) (table : Toml.Table) : Except SettingsFault (Option Int) :=
  match Toml.Table.get? table s.key with
  | none => .ok none
  | some (.integer n) => .ok (some n)
  | some _ => .error (.invalid (.notWhole s))

/-- A whole number of at least one that may be left out. -/
def positiveSetting (s : NumberSetting) (table : Toml.Table) : Except SettingsFault (Option Nat) :=
  match wholeSetting s table with
  | .error e => .error e
  | .ok none => .ok none
  | .ok (some n) => if n < 1 then .error (.invalid (.belowOne s)) else .ok (some n.toNat)

/-- The rule to generate from. -/
def ruleSetting (table : Toml.Table) : Except SettingsFault (Option Text) :=
  match Toml.Table.get? table "rule".toList with
  | none => .ok none
  | some (.string t) => .ok (some t)
  | some _ => .error (.invalid .ruleNotText)

/-- The place of a grammar file that is named by a text, as seen from a
directory. -/
def grammarPath (tree : FileTree) (base : Path) (name : Text) : Except SettingsFault Path :=
  let p := Path.ofText name
  if p.isAbsolute then .ok p
  else if (base.join p).hasNul then .error .nulInPath
  else .ok ((base.join p).resolve tree.cwd)

/-- One entry of the list of grammar files. -/
def fileSetting (tree : FileTree) (base : Path) : Toml.Value → Except SettingsFault Path
  | .string name =>
    if name.all isBlank then .error (.invalid .fileNotNamed)
    else
      match grammarPath tree base name with
      | .error e => .error e
      | .ok p =>
        match tree.holds p with
        | .ok true => .ok p
        | .ok false => .error (.grammarMissing p)
        | .error e => .error (.grammarUnnamable e)
  | _ => .error (.invalid .fileNotNamed)

/-- The entries of the list of grammar files, up to the first fault. -/
def fileSettings (tree : FileTree) (base : Path) : List Toml.Value → Except SettingsFault (List Path)
  | [] => .ok []
  | v :: rest =>
    match fileSetting tree base v with
    | .error e => .error e
    | .ok p => (fileSettings tree base rest).map (p :: ·)

/-- The grammar files: a list of names, or one name alone. -/
def filesSetting (tree : FileTree) (base : Path) (table : Toml.Table) :
    Except SettingsFault (List Path) :=
  match Toml.Table.get? table "files".toList with
  | none => .ok []
  | some (.string name) => fileSettings tree base [.string name]
  | some (.array items) => fileSettings tree base items
  | some _ => .error (.invalid .filesNotListed)

/-- A section, which may be left out. -/
def sectionTable (s : Section) (table : Toml.Table) : Except SettingsFault (Option Toml.Table) :=
  match Toml.Table.get? table s.name with
  | none => .ok none
  | some (.table t) => .ok (some t)
  | some _ => .error (.invalid (.notATable s))

/-- The settings for generation in their section. -/
def GenerationSettings.ofTable (tree : FileTree) (base : Path) (table : Toml.Table) :
    Except SettingsFault GenerationSettings := do
  let rule ← ruleSetting table
  let count ← positiveSetting .count table
  let files ← filesSetting tree base table
  let seed ← wholeSetting .seed table
  let limit ← positiveSetting .limit table
  return ⟨files, rule, count.getD 1, seed, limit⟩

/-- The host to serve on: the text of any value. -/
def hostSetting (table : Toml.Table) : Except SettingsFault Text :=
  match Toml.Table.get? table "host".toList with
  | none => .ok ServingSettings.default.host
  | some v => v.text.mapError .hostWithoutText

/-- The settings for serving in their section. -/
def ServingSettings.ofTable (table : Toml.Table) : Except SettingsFault ServingSettings := do
  let port ← wholeSetting .port table
  let host ← hostSetting table
  return ⟨host, port.getD ServingSettings.default.port⟩

/-- The settings that a configuration holds. Relative names of grammar files
start from `base`. -/
def Settings.ofTable (tree : FileTree) (base : Path) (table : Toml.Table) :
    Except SettingsFault Settings := do
  let generation ← match ← sectionTable .generation table with
    | none => pure GenerationSettings.default
    | some t => GenerationSettings.ofTable tree base t
  let serving ← match ← sectionTable .serving table with
    | none => pure ServingSettings.default
    | some t => ServingSettings.ofTable t
  return ⟨generation, serving⟩

/-- Why a text is no configuration, as an error of the file at a path. -/
def SettingsError.ofToml (p : Path) : Toml.Fault → SettingsError
  | .malformed => .malformed p
  | .numeral e => .numeral e
  | .tooDeep => .tooDeep

/-- The values in the configuration file at a path. -/
def readConfiguration (tree : FileTree) (p : Path) : Except SettingsError Toml.Table :=
  match tree.holds p with
  | .error e => .error (.unreadable e)
  | .ok false => .error (.missing p)
  | .ok true =>
    match tree.readOctets p with
    | .error e => .error (.unreadable e)
    | .ok octets =>
      match decodeUtf8 octets with
      | .error e => .error (.encoding e)
      | .ok text => (Toml.read text).mapError (SettingsError.ofToml p)

/-- The settings in the configuration file at a path. -/
def Settings.load (tree : FileTree) (p : Path) : Except SettingsError Settings :=
  match readConfiguration tree p with
  | .error e => .error e
  | .ok table => (Settings.ofTable tree p.parent table).mapError .values

theorem Settings.load_of_read {tree : FileTree} {p : Path} {table : Toml.Table}
    (h : readConfiguration tree p = .ok table) :
    Settings.load tree p = (Settings.ofTable tree p.parent table).mapError .values := by
  rw [load, h]

end PhraseGrammar
