import ScanJobs.Script.Registering
import ScanJobs.Script.Running
import ScanJobs.Script.Types
import ScanJobs.Proofs.Schema.Reading
import ScanJobs.Proofs.Schema.Standing
import ScanJobs.Proofs.Schema.Weaving
import ScanJobs.Proofs.Schema.KeyPath
import ScanJobs.Proofs.Config.Writes
import ScanJobs.Proofs.Config.Reserved
import ScanJobs.Proofs.Config.Merging
import ScanJobs.Proofs.Number.Order
import ScanJobs.Proofs.Value.Sets
import ScanJobs.Proofs.OptionType.Reread
import ScanJobs.Proofs.Schema.Fitting
import ScanJobs.Proofs.Config.Entries
import ScanJobs.Proofs.Config.Worker
import ScanJobs.Proofs.Job.Submission
import ScanJobs.Proofs.Schema.Declaring
import ScanJobs.Proofs.Number.Written
import ScanJobs.Proofs.OptionType.Pieces
import ScanJobs.Proofs.OptionType.Restoring
import ScanJobs.Proofs.OptionType.Legible
import ScanJobs.Proofs.OptionType.Lossy
import ScanJobs.Proofs.Config.Restored
import ScanJobs.Proofs.Counters
import ScanJobs.Proofs.Metrics.Summary
import ScanJobs.Proofs.Task.Scan
import ScanJobs.Proofs.Engine.LocalJob
import ScanJobs.Proofs.Registry.Bound
import ScanJobs.Proofs.Job.Scanning
import ScanJobs.Proofs.Engine.Submission
import ScanJobs.Proofs.Registry.Calls
import ScanJobs.Proofs.Engine.Calls
import ScanJobs.Proofs.Engine.Completion
import ScanJobs.Proofs.Engine.Totals
import ScanJobs.Proofs.Schema.Addresses
import ScanJobs.Proofs.Metrics.Distinct
import ScanJobs.Proofs.Task.Failing
import ScanJobs.Proofs.Job.Outcomes
import ScanJobs.Proofs.Task.Finding
import ScanJobs.Proofs.Job.Workers
import ScanJobs.Proofs.Schema.Grammar
import ScanJobs.Proofs.Job.Classified
import ScanJobs.Proofs.Config.Determined
import ScanJobs.Proofs.Config.Cells
import ScanJobs.Proofs.Config.Flattening
import ScanJobs.Proofs.Config.Found
import ScanJobs.Proofs.Task.Life
import ScanJobs.Proofs.Config.Subset
import ScanJobs.Proofs.Registry.Imports
import ScanJobs.Proofs.Config.Spellings
import ScanJobs.Proofs.Schema.Refused
import ScanJobs.Proofs.Value.Grounds
import ScanJobs.Proofs.Config.Writable
import ScanJobs.Proofs.Settings.Starting
import ScanJobs.Proofs.Config.OneText
import ScanJobs.Proofs.Job.Surfacing
import ScanJobs.Proofs.Value.Parts
import ScanJobs.Proofs.Value.Relisted
import ScanJobs.Proofs.Value.Proper
import ScanJobs.Proofs.OptionType.Typed
import ScanJobs.Proofs.Config.Again
import ScanJobs.Proofs.Counters.Parts
import ScanJobs.Proofs.Counters.Rejected
import ScanJobs.Proofs.Config.Placed
