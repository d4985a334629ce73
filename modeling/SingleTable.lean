import SingleTable.Config
import SingleTable.Connection.Batches
import SingleTable.Connection.Scans
import SingleTable.Document.Reader
import SingleTable.Document.Writer
import SingleTable.Entity.Reads
import SingleTable.Entity.Writes
import SingleTable.Form.Call
import SingleTable.Form.Condition
import SingleTable.Form.Declaration
import SingleTable.Form.Script
import SingleTable.Wire.Reply
import SingleTable.Proofs.Expression.Grammar
import SingleTable.Proofs.Expression.Bindings
import SingleTable.Proofs.Expression.Resolution
import SingleTable.Proofs.Expression.Mention
import SingleTable.Proofs.Condition.Meaning
import SingleTable.Proofs.Condition.Compilation
import SingleTable.Proofs.Condition.Closure
import SingleTable.Proofs.Update.Grammar
import SingleTable.Proofs.Update.Reading
import SingleTable.Proofs.Update.Compilation
import SingleTable.Proofs.Update.Closure
import SingleTable.Proofs.Service.Evaluation
import SingleTable.Proofs.Update.Targets
import SingleTable.Proofs.Template.Interpolation
import SingleTable.Proofs.Template.Reading
import SingleTable.Proofs.Template.Preference
import SingleTable.Proofs.Template.Pattern
import SingleTable.Proofs.Template.Separators
import SingleTable.Proofs.Entity.Layout
import SingleTable.Proofs.Entity.Attribution
import SingleTable.Proofs.Entity.Requests
import SingleTable.Proofs.Entity.Item
import SingleTable.Proofs.Entity.Update
import SingleTable.Proofs.Index.Impact
import SingleTable.Proofs.Index.Agreement
import SingleTable.Proofs.Index.Copies
import SingleTable.Proofs.Entity.Closure
import SingleTable.Proofs.Entity.Identity
import SingleTable.Proofs.Service.Store
import SingleTable.Proofs.Template.Segments
import SingleTable.Proofs.Unique.Records
import SingleTable.Proofs.Unique.Collision
import SingleTable.Proofs.Unique.Transfer
import SingleTable.Proofs.Entity.Guards
import SingleTable.Proofs.Entity.Protection
import SingleTable.Proofs.Unique.Submission
import SingleTable.Proofs.Unique.Change
import SingleTable.Proofs.Unique.Course
import SingleTable.Proofs.Unique.Sequential
import SingleTable.Proofs.Unique.Concurrent
import SingleTable.Proofs.Unique.Undoing
import SingleTable.Proofs.Unique.Replacement
import SingleTable.Proofs.Entity.Address
import SingleTable.Proofs.Entity.RoundTrip
import SingleTable.Proofs.Entity.Typing
import SingleTable.Proofs.Entity.Projecting
import SingleTable.Proofs.Entity.Querying
import SingleTable.Proofs.Store.Log
import SingleTable.Proofs.Transaction.Coordination
import SingleTable.Proofs.Batch.Accounting
import SingleTable.Proofs.Batch.Reading
import SingleTable.Proofs.Paging.Listing
import SingleTable.Proofs.Paging.Resumption
import SingleTable.Proofs.Paging.Loop
import SingleTable.Proofs.Update.Merging
import SingleTable.Proofs.Condition.Success
import SingleTable.Proofs.Entity.Heeding
import SingleTable.Proofs.Entity.Survival
import SingleTable.Proofs.Entity.Hiding
import SingleTable.Proofs.Entity.Compiling
import SingleTable.Proofs.Expression.Failure
import SingleTable.Proofs.Condition.Failure
import SingleTable.Proofs.Update.Failure
import SingleTable.Proofs.Paging.Segments
import SingleTable.Proofs.Declaration.Inheritance
import SingleTable.Proofs.Template.Cutting
import SingleTable.Proofs.Condition.Flat
import SingleTable.Proofs.Condition.Span
import SingleTable.Proofs.Wire.Batches
import SingleTable.Proofs.Batch.Backoff
import SingleTable.Proofs.Generation.Base62
