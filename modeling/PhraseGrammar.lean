import PhraseGrammar.Workbench
import PhraseGrammar.Service.Launch
import PhraseGrammar.Main
import PhraseGrammar.Proofs.EscapeFacts
import PhraseGrammar.Proofs.LineFacts
import PhraseGrammar.Proofs.NumeralFacts
import PhraseGrammar.Proofs.StoreAdditions
import PhraseGrammar.Proofs.ScriptAdditions
import PhraseGrammar.Proofs.DumpLines
import PhraseGrammar.Proofs.RoundTrip
import PhraseGrammar.Proofs.DrawingFacts
import PhraseGrammar.Proofs.Language
import PhraseGrammar.Proofs.Reload
import PhraseGrammar.Proofs.Nesting
import PhraseGrammar.Proofs.StoreGrowth
import PhraseGrammar.Proofs.JoinedScripts
import PhraseGrammar.Proofs.SourceFaults
import PhraseGrammar.Proofs.CommandEnds
import PhraseGrammar.Proofs.Locality
import PhraseGrammar.Proofs.WeightCopies
import PhraseGrammar.Proofs.Grouping
import PhraseGrammar.Proofs.PathFacts
import PhraseGrammar.Proofs.SignedNumerals
import PhraseGrammar.Proofs.AttachedValues
import PhraseGrammar.Proofs.LoadedSettings
import PhraseGrammar.Proofs.FirstFailure
import PhraseGrammar.Proofs.FrontEnds
import PhraseGrammar.Proofs.UniqueDumps
import PhraseGrammar.Proofs.CutShort
import PhraseGrammar.Proofs.Requests
import PhraseGrammar.Proofs.SafeReplies
import PhraseGrammar.Proofs.LineGroups
import PhraseGrammar.Proofs.Layout
import PhraseGrammar.Proofs.Templates
import PhraseGrammar.Proofs.Shares
import PhraseGrammar.Proofs.WrittenForms
import PhraseGrammar.Proofs.Loaders
import PhraseGrammar.Proofs.ConfigurationChecks
import PhraseGrammar.Proofs.JsonGrammar
import PhraseGrammar.Proofs.LineEnds
import PhraseGrammar.Proofs.ListedRules
