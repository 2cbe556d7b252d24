import MiniCodeAgent.Proofs.GateSafety
import MiniCodeAgent.Proofs.StepAccounting
import MiniCodeAgent.Proofs.ReceiptRoundTrip
import MiniCodeAgent.Proofs.PrepareAccepts
import MiniCodeAgent.Proofs.AccessLog
import MiniCodeAgent.Proofs.TransactionLifecycle
import MiniCodeAgent.Proofs.CommitOutcomes
import MiniCodeAgent.Proofs.CreateRuns
import MiniCodeAgent.Proofs.CommitOverlay
import MiniCodeAgent.Proofs.CommitTampering
import MiniCodeAgent.Proofs.ReceiptReaders
import MiniCodeAgent.Proofs.ScannerParity
import MiniCodeAgent.Proofs.MemoryAuthority
import MiniCodeAgent.Proofs.MemoryRevisions
import MiniCodeAgent.Proofs.MemoryProvenance
import MiniCodeAgent.Proofs.FirstUse
import MiniCodeAgent.Proofs.IdentityRace
import MiniCodeAgent.Proofs.BackupRoundTrip
import MiniCodeAgent.Proofs.LedgerMigration
import MiniCodeAgent.Proofs.Retention
import MiniCodeAgent.Proofs.Compaction
import MiniCodeAgent.Proofs.MutationConformance
import MiniCodeAgent.Proofs.MutationSnapshots
import MiniCodeAgent.Proofs.RetrievalFilter
import MiniCodeAgent.Proofs.RenderedContext
import MiniCodeAgent.MemoryControl
import MiniCodeAgent.Proofs.ChatBatch
import MiniCodeAgent.Proofs.ChatResume
import MiniCodeAgent.Proofs.ChatVerified
import MiniCodeAgent.Proofs.ReadOnlyTurns
import MiniCodeAgent.Proofs.MutationAcknowledged
import MiniCodeAgent.Proofs.CompactionRoom
import MiniCodeAgent.Proofs.RetentionRefusal
import MiniCodeAgent.Proofs.RetentionProgress
import MiniCodeAgent.Proofs.ContinuityRecall
import MiniCodeAgent.Proofs.FormationRuns
import MiniCodeAgent.Proofs.Checkpoints
import MiniCodeAgent.Proofs.BatchAlignment
import MiniCodeAgent.Proofs.MatrixVerdict
import MiniCodeAgent.Log.Rollback
import MiniCodeAgent.Proofs.UndoRoundTrip
import MiniCodeAgent.Proofs.Confinement
import MiniCodeAgent.Proofs.UndoSafety
import MiniCodeAgent.Proofs.PatchOccurrences
import MiniCodeAgent.Proofs.LineNumbers
import MiniCodeAgent.FileReading
import MiniCodeAgent.Proofs.StandingCards
import MiniCodeAgent.Proofs.Remembering
import MiniCodeAgent.MemoryAdmission
import MiniCodeAgent.Proofs.RepairCapacity
import MiniCodeAgent.Proofs.Reforming
import MiniCodeAgent.MemorySearch
import MiniCodeAgent.Proofs.MemoryIndex
import MiniCodeAgent.Proofs.SearchLimit
import MiniCodeAgent.Proofs.FeedbackRuns
import MiniCodeAgent.SillyTavern
import MiniCodeAgent.Text.Replacement
import MiniCodeAgent.SecretPatterns
import MiniCodeAgent.Proofs.Redaction
import MiniCodeAgent.Proofs.StateLeaves
import MiniCodeAgent.Proofs.EmbeddingCache
import MiniCodeAgent.Proofs.ScopeNarrowing
import MiniCodeAgent.Proofs.PromptInjection
import MiniCodeAgent.Proofs.ChatFile
import MiniCodeAgent.Proofs.ChatImport
import MiniCodeAgent.Proofs.AddedContent
