import SingleTable.Connection
import SingleTable.Entity.Reads
import SingleTable.Entity.Writes

/-!
# Transactions

A write transaction is a list of pending writes.  Executing it reads the current item of
each write that asks for one, in order, and submits the operations of all writes at once.
Nothing is submitted if a read fails, if there are too many operations, or if there are none.
-/

namespace SingleTable

namespace Connection

/-! ## Writing -/

/-- The operations of pending writes, in order.  A write that needs the current item is given
what a consistent read answers. -/
def resolve : List PendingWrite → Operation (List WriteOperation)
  | [] => return []
  | .direct operations :: rest => do
    return operations ++ (← resolve rest)
  | .afterRead _ item operationsAfter :: rest => do
    let prior ← Operation.ask
      (.get { table := item.table, key := item.key, consistent := true })
    let operations ← operationsAfter prior
    return operations ++ (← resolve rest)

def cancelledOperations (operations : List WriteOperation)
    (reasons : List CancellationReason) : List CancelledOperation :=
  reasons.mapIdx fun index reason =>
    { index
      code := reason.code
      message := reason.message
      operation := ((operations[index]?).map (·.display)).getD "" }

def submit (operations : List WriteOperation) : Operation Unit := do
  if operations.isEmpty then
    return
  match ← Operation.ask (.transactWrite operations) with
  | .committed => return
  | .cancelled reasons =>
    throw (.transactionCancelled (cancelledOperations operations reasons))

def executeWrites (connection : Connection) (writes : List PendingWrite) : Operation Unit := do
  let operations ← resolve writes
  let limit := connection.config.maxTransactionItems
  if limit < operations.length then
    throw (.transactionTooLarge writes.length operations.length limit)
  submit operations

def pendingCreate {α : Type} [Storable α] (connection : Connection) (draw : String → Moment)
    (typeName : String) (value : α) (options : CreateOptions) : Except Error PendingWrite := do
  let attributes ← ConversionError.lift (Storable.toItem value)
  (← connection.entity typeName).createWrite draw attributes options

def pendingUpdate (connection : Connection) (draw : String → Moment) (typeName : String)
    (key : Item) (body : UpdateBody) (options : UpdateOptions) : Except Error PendingWrite := do
  (← connection.entity typeName).updateWrite draw key body options

def pendingDelete (connection : Connection) (typeName : String) (key : Item)
    (options : DeleteOptions) : Except Error PendingWrite := do
  (← connection.entity typeName).deleteWrite key options

/-! ## Reading -/

def pendingGet (connection : Connection) (typeName : String) (key : Item)
    (options : GetOptions) : Except Error GetRequest := do
  (← connection.entity typeName).getRequest key options

/-- The items of a transaction that are not missing, in their places. -/
def toPresentItems (connection : Connection) (items : List (Option Item)) :
    Except Error (List (Option LogicalItem)) :=
  items.mapM fun item => item.mapM connection.toLogicalItem

/-- Read several items at one moment; a missing item has no entry. -/
def readTransaction (connection : Connection) (requests : List GetRequest) :
    Operation (List (Option LogicalItem)) := do
  if requests.isEmpty then
    return []
  let items ← Operation.ask (.transactRead requests)
  connection.toPresentItems items

end Connection

end SingleTable
