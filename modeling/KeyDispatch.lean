import KeyDispatch.Files.Disk
import KeyDispatch.Main
import KeyDispatch.Proofs.Spellings
import KeyDispatch.Proofs.SpellingCounts
import KeyDispatch.Proofs.FirstWins
import KeyDispatch.Proofs.NaiveResolver
import KeyDispatch.Proofs.KeypadFailure
import KeyDispatch.Proofs.PlatformExchange
import KeyDispatch.Proofs.TextTranslation
import KeyDispatch.Proofs.Token
import KeyDispatch.Proofs.TokenReader
import KeyDispatch.Proofs.LineGrammar
import KeyDispatch.Proofs.SymbolLine
import KeyDispatch.Proofs.HexNumbers
import KeyDispatch.Proofs.FirstFault
import KeyDispatch.Proofs.PrefixCode
import KeyDispatch.Proofs.RustContent
import KeyDispatch.Proofs.CppContent
import KeyDispatch.Proofs.TableEntries
import KeyDispatch.Proofs.RustProgram
import KeyDispatch.Proofs.RustMeaning
import KeyDispatch.Proofs.Preprocessor
import KeyDispatch.Proofs.CppFunction
import KeyDispatch.Proofs.CppTokens
import KeyDispatch.Proofs.CppLines
import KeyDispatch.Proofs.CppMeaning
import KeyDispatch.Proofs.CaseLabels
import KeyDispatch.Proofs.DefinitionOrder
import KeyDispatch.Proofs.DiskChange
import KeyDispatch.Proofs.TemporaryPath
import KeyDispatch.Proofs.GuardedDisk
import KeyDispatch.Proofs.StoreSteps
import KeyDispatch.Proofs.RunPlan
import KeyDispatch.Proofs.RunChange
import KeyDispatch.Proofs.CheckAgreement
import KeyDispatch.Proofs.UnguardedDisk
import KeyDispatch.Proofs.KeyIndependence
import KeyDispatch.Proofs.VendorAddition
import KeyDispatch.Proofs.LastWins
import KeyDispatch.Proofs.KeysymSources
import KeyDispatch.Proofs.NoKeysym
import KeyDispatch.Proofs.DroppedLines
import KeyDispatch.Proofs.RunReports
import KeyDispatch.Proofs.UnresolvedCount
import KeyDispatch.Proofs.ArtifactContent
import KeyDispatch.Proofs.AppendedLines
import KeyDispatch.Proofs.TrailingBlanks
import KeyDispatch.Proofs.AtomicWrite
import KeyDispatch.Proofs.ReportTexts
import KeyDispatch.Proofs.ResolverReports
import KeyDispatch.Proofs.OverrideLayers
import KeyDispatch.Proofs.ConfigFields
