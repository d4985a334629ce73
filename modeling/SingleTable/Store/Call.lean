import SingleTable.Request

/-!
# Calls of the store

The ten calls that the library makes, and the type of the answer to each.  Every call can
fail instead of being answered.
-/

namespace SingleTable

/-- What the store tells about one operation of a cancelled transaction. -/
structure CancellationReason where
  /-- The code of the failure; an operation that did not fail has none or `None`. -/
  code : Option String := none
  message : Option String := none
  deriving DecidableEq, Repr

/-- The outcome of a write transaction. -/
inductive TransactionOutcome where
  /-- Every operation was applied. -/
  | committed
  /-- No operation was applied; there is a reason for each. -/
  | cancelled (reasons : List CancellationReason)
  deriving DecidableEq, Repr

structure BatchReadAnswer where
  items : List Item := []
  /-- The keys that were not read. -/
  unprocessed : List KeyRef := []
  deriving DecidableEq

/-- A call of the store. -/
inductive Call where
  | get (request : GetRequest)
  | put (request : PutRequest)
  | update (request : UpdateRequest)
  | delete (request : DeleteRequest)
  | query (request : QueryRequest)
  | scan (request : ScanRequest)
  | batchWrite (requests : List BatchWrite)
  | batchRead (keys : List KeyRef)
  /-- Read several items at one moment. -/
  | transactRead (requests : List GetRequest)
  /-- Apply all operations or none. -/
  | transactWrite (operations : List WriteOperation)
  deriving DecidableEq

abbrev Call.Answer : Call → Type
  | get _ => Option Item
  | put _ => Unit
  | update _ => Option Item
  | delete _ => Unit
  | query _ => Page
  | scan _ => Page
  | batchWrite _ => List BatchWrite
  | batchRead _ => BatchReadAnswer
  | transactRead _ => List (Option Item)
  | transactWrite _ => TransactionOutcome

def Call.name : Call → String
  | get _ => "get_item"
  | put _ => "put_item"
  | update _ => "update_item"
  | delete _ => "delete_item"
  | query _ => "query"
  | scan _ => "scan"
  | batchWrite _ => "batch_write"
  | batchRead _ => "batch_get"
  | transactRead _ => "transact_get"
  | transactWrite _ => "transact_write"

end SingleTable
