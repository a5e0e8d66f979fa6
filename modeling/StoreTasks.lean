import StoreTasks.Main
import StoreTasks.Proofs.Calendar.Grammar
import StoreTasks.Proofs.Calendar.LowerCase
import StoreTasks.Proofs.Calendar.Order
import StoreTasks.Proofs.Calendar.Reading
import StoreTasks.Proofs.Calendar.Relative
import StoreTasks.Proofs.Calendar.Shift
import StoreTasks.Proofs.Calendar.Written
import StoreTasks.Proofs.Command.Arguments
import StoreTasks.Proofs.Command.Run
import StoreTasks.Proofs.Destination.Local
import StoreTasks.Proofs.Destination.Remote
import StoreTasks.Proofs.Dialect
import StoreTasks.Proofs.Document
import StoreTasks.Proofs.Entity.Changes
import StoreTasks.Proofs.Extract
import StoreTasks.Proofs.Extract.Columns
import StoreTasks.Proofs.Extract.Idempotence
import StoreTasks.Proofs.Extract.Locality
import StoreTasks.Proofs.Extract.Rendering
import StoreTasks.Proofs.Extract.Request
import StoreTasks.Proofs.Extract.Skeleton
import StoreTasks.Proofs.Load.Fragments
import StoreTasks.Proofs.Load.UploadTasks
import StoreTasks.Proofs.ReadTask
import StoreTasks.Proofs.Settings
import StoreTasks.Proofs.SpecFile
import StoreTasks.Proofs.Timeframe
import StoreTasks.Proofs.Timeframe.Exact
import StoreTasks.Proofs.Timeframe.ReferenceDate
