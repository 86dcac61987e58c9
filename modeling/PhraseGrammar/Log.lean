/-
Lines for the error stream: complaints, which always show, and notes on the
progress, which show on demand.
-/
import PhraseGrammar.Drawing
import PhraseGrammar.Sources

namespace PhraseGrammar

/-- A line about progress, from the part of the program that is named. -/
def progressLine (part : String) (text : Text) : Text :=
  "DEBUG psr.".toList ++ part.toList ++ ": ".toList ++ text ++ ['\n']

/-- The line about a source, if it shows. -/
def SourceReport.line (verbose : Bool) : SourceReport → Text
  | .unreadable name e => "Error reading ".toList ++ name ++ ":  ".toList ++ e.message ++ ['\n']
  | .parsing name => if verbose then progressLine "main" ("parsing ".toList ++ name) else []
  | .parsed values rules =>
    if verbose then
      progressLine "parser" ("parsed ".toList ++ numeral values ++
        " values, store now holds ".toList ++ numeral rules ++ " rules".toList)
    else []

/-- The line about an expansion, if it shows. -/
def Notice.line (verbose : Bool) (n : Notice) : Text :=
  if verbose then
    match n with
    | .generating rule => progressLine "generator" ("generating from rule ".toList ++ quoted rule)
    | .undefined rule =>
      progressLine "generator" ("rule ".toList ++ quoted rule ++
        " is not defined, expanding to nothing".toList)
  else []

/-- The line about an expansion of a rule whose name was left blank, if it
shows. -/
def blankRuleLine (verbose : Bool) : Text :=
  if verbose then progressLine "generator" "generating from rule []".toList else []

end PhraseGrammar
