import QueryAudit.Main
import QueryAudit.Tree.Locate
import QueryAudit.Tree.Serial
import QueryAudit.Proofs.RememberedAnswers
import QueryAudit.Proofs.BlamedTypes
import QueryAudit.Proofs.QuestionHistories
import QueryAudit.Proofs.InnermostTypes
import QueryAudit.Proofs.ReportedCalls
import QueryAudit.Proofs.FiledDiagnostics
import QueryAudit.Proofs.MovedTypes
import QueryAudit.Proofs.RemarkedTrees
import QueryAudit.Proofs.MovedFindings
import QueryAudit.Proofs.LoadedUnits
import QueryAudit.Proofs.ConfinedLoads
import QueryAudit.Proofs.IndependentUnits
import QueryAudit.Proofs.SettledOnce
import QueryAudit.Proofs.StoreHistories
import QueryAudit.Proofs.DefinedSlots
import QueryAudit.Proofs.CancelledPasses
import QueryAudit.Proofs.SortedDiagnostics
import QueryAudit.Proofs.TextSlices
import QueryAudit.Proofs.TextLines
import QueryAudit.Proofs.LocatedTrees
import QueryAudit.Proofs.QuotedCalls
import QueryAudit.Proofs.AlikeTypes
import QueryAudit.Proofs.IndependentRoots
import QueryAudit.Proofs.PassLogs
import QueryAudit.Proofs.WidenedConfigs
import QueryAudit.Proofs.EntryTrees
import QueryAudit.Proofs.WrittenDumps
import QueryAudit.Proofs.DumpVerdicts
import QueryAudit.Proofs.RenderedSlices
import QueryAudit.Proofs.FaultyDumps
import QueryAudit.Proofs.PointedLabels
import QueryAudit.Proofs.ReorderedLabels
import QueryAudit.Proofs.NestedPlaces
import QueryAudit.Proofs.ShownLevels
import QueryAudit.Proofs.LoggedQuestions
import QueryAudit.Proofs.BoundedQuestions
import QueryAudit.Proofs.AmpleLimits
import QueryAudit.Proofs.RecoveredTrees
import QueryAudit.Proofs.ReplayedPasses
import QueryAudit.Proofs.WrappedArguments
import QueryAudit.Proofs.DecodableLiterals
import QueryAudit.Proofs.SerializedTrees
import QueryAudit.Proofs.FaultyTypes
import QueryAudit.Proofs.WrittenTexts
import QueryAudit.Proofs.WrittenConfigs
