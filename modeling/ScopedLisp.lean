import ScopedLisp.Main
import ScopedLisp.Proofs.FormPositions
import ScopedLisp.Proofs.TokenGrammar
import ScopedLisp.Proofs.FormReading
import ScopedLisp.Proofs.FormExactness
import ScopedLisp.Proofs.DescentReading
import ScopedLisp.Proofs.LexemeClasses
import ScopedLisp.Proofs.SourceLayout
import ScopedLisp.Proofs.SourceReading
import ScopedLisp.Proofs.JoinedSources
import ScopedLisp.Proofs.ScopeLookup
import ScopedLisp.Proofs.ValueRelation
import ScopedLisp.Proofs.PrimitiveVerdicts
import ScopedLisp.Proofs.Simulation
import ScopedLisp.Proofs.EvaluationPolicy
import ScopedLisp.Proofs.NameStability
import ScopedLisp.Proofs.ScopeTrees
import ScopedLisp.Proofs.Sessions
import ScopedLisp.Proofs.WorldComparison
import ScopedLisp.Proofs.RootIsolation
import ScopedLisp.Proofs.ReaderPositions
import ScopedLisp.Proofs.LayoutIndependence
import ScopedLisp.Proofs.SequenceInTurn
import ScopedLisp.Proofs.FormRenaming
import ScopedLisp.Proofs.ParameterRenaming
import ScopedLisp.Proofs.ParenthesisScanner
import ScopedLisp.Proofs.InputLines
import ScopedLisp.Proofs.DialogueTurns
import ScopedLisp.Proofs.DialogueEntries
import ScopedLisp.Proofs.ReadingSteps
import ScopedLisp.Proofs.NumberBoundaries
import ScopedLisp.Proofs.ScannerAgreement
import ScopedLisp.Proofs.ViablePrefixes
import ScopedLisp.Proofs.ErrorPhases
import ScopedLisp.Proofs.WrittenLexemes
import ScopedLisp.Proofs.RunOutcomes
import ScopedLisp.Proofs.EvaluationTasks
import ScopedLisp.Proofs.ErrorOrigins
import ScopedLisp.Proofs.NestedTasks
import ScopedLisp.Proofs.ScopeGrowth
import ScopedLisp.Proofs.SessionWorlds
import ScopedLisp.Proofs.ScopeForest
import ScopedLisp.Proofs.StoreLaws
import ScopedLisp.Proofs.StringLiterals
import ScopedLisp.Proofs.LiteralConversion
import ScopedLisp.Proofs.NativeFailures
import ScopedLisp.Proofs.EndOfInput
import ScopedLisp.Proofs.AccessibleScopes
import ScopedLisp.Proofs.RefusedOutput
import ScopedLisp.Proofs.FirstPrint
import ScopedLisp.Proofs.DecimalMagnitudes
import ScopedLisp.Proofs.RenderedNumbers
import ScopedLisp.Proofs.FirstFaults
import ScopedLisp.Proofs.FormLayout
import ScopedLisp.Proofs.NodePositions
import ScopedLisp.Proofs.ApplyCalls
import ScopedLisp.Proofs.ValueEquality
import ScopedLisp.Proofs.CommandLineReading
import ScopedLisp.Proofs.NumberValues
import ScopedLisp.Proofs.NumberIndices
import ScopedLisp.Proofs.ListNatives
import ScopedLisp.Proofs.SettledTasks
import ScopedLisp.Proofs.ClosureFreeRuns
import ScopedLisp.Proofs.DroppedInput
import ScopedLisp.Proofs.BytewiseText
import ScopedLisp.Proofs.ByteRuns
import ScopedLisp.Proofs.ByteTokens
