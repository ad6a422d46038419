import Cruxible.ApplyWorkflow
import Cruxible.AttestationReplays
import Cruxible.AutoResolution
import Cruxible.ChangeHistory
import Cruxible.ClaimTargets
import Cruxible.ConflictLogs
import Cruxible.ContractExamples
import Cruxible.ContractOpenings
import Cruxible.ContradictionQueues
import Cruxible.CountGuards
import Cruxible.CredentialHistories
import Cruxible.DecisionRecords
import Cruxible.DiffExplanations
import Cruxible.FrozenProperties
import Cruxible.IdentityPreviews
import Cruxible.Instants
import Cruxible.InvocationAccounts
import Cruxible.LayerSequences
import Cruxible.LostUpdates
import Cruxible.MarkdownDocuments
import Cruxible.MetadataEnvelopes
import Cruxible.Neighborhoods
import Cruxible.NodeIds
import Cruxible.PendingVersions
import Cruxible.PinnedEvidence
import Cruxible.PlanPreviews
import Cruxible.ProcedureDiffs
import Cruxible.ProcedureRecords
import Cruxible.ProcedureRestores
import Cruxible.PullFailures
import Cruxible.ReadRevisions
import Cruxible.ReceiptBoundary
import Cruxible.ReceiptPages
import Cruxible.ReferencePaths
import Cruxible.ReleaseBundles
import Cruxible.Representatives
import Cruxible.RuntimeCompositions
import Cruxible.SilentOverlays
import Cruxible.Snapshots
import Cruxible.StateDiffCoordinates
import Cruxible.SummaryRows
import Cruxible.SupersessionLinks
import Cruxible.TelemetryBuffers
import Cruxible.TerminalLifecycle
import Cruxible.TruncationTaint
import Cruxible.TupleOwnership
import Cruxible.UniquenessChecks
import Cruxible.WritePolicies
