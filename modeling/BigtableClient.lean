import BigtableClient.ProofSupport.Brackets
import BigtableClient.Proofs.Abandon
import BigtableClient.Proofs.BatchTrace
import BigtableClient.Proofs.BulkReport
import BigtableClient.Proofs.BulkTrace
import BigtableClient.Proofs.Completion
import BigtableClient.Proofs.Effect
import BigtableClient.Proofs.EntryCount
import BigtableClient.Proofs.Lookup
import BigtableClient.Proofs.Outcome
import BigtableClient.Proofs.Pacing
import BigtableClient.Proofs.QuerySelection
import BigtableClient.Proofs.ReadExact
import BigtableClient.Proofs.ReadOrder
import BigtableClient.Proofs.ReadTrace
import BigtableClient.Proofs.Refresh
import BigtableClient.Proofs.RequestLimits
import BigtableClient.Proofs.Resume
import BigtableClient.Proofs.RetryBudget
import BigtableClient.Proofs.RetryCause
import BigtableClient.Proofs.RetryCount
import BigtableClient.Proofs.RetrySafe
import BigtableClient.Proofs.RowCount
import BigtableClient.Proofs.RowLimit
import BigtableClient.Proofs.SplitValue
import BigtableClient.Proofs.StreamExact
import BigtableClient.Proofs.StreamOutcome
import BigtableClient.Proofs.TraceCounts
import BigtableClient.Proofs.DeriveOrder
import BigtableClient.Proofs.TypedRead
import BigtableClient.Proofs.InFlight
import BigtableClient.Proofs.ConfigBuild
import BigtableClient.Proofs.BulkDeadline
import BigtableClient.CellValue
import BigtableClient.ProofSupport.Numerals
import BigtableClient.Proofs.CellText
import BigtableClient.Proofs.ReadDeadline
import BigtableClient.Proofs.WriteRead
