import SingleTable.Connection.Transactions

/-!
# Batches

A batch writes or reads many items without being atomic as a whole.  Its requests are cut
into chunks, and what the store leaves unprocessed is sent again after a pause, a limited
number of times.  Entities with unique attributes cannot be written in a chunk; each is a
transaction of its own.

The chunks and transactions are dialogues that run at once, up to a number of them at a
time.  Failures are part of the outcome and do not stop the others.
-/

namespace SingleTable

/-- One item of a write batch. -/
inductive BatchItem where
  /-- A request that goes into a chunk. -/
  | plain (request : BatchWrite)
  /-- A write that is a transaction of its own. -/
  | transactional (entity : String) (write : PendingWrite)

/-- A write that failed. -/
inductive FailedWrite where
  | batch (requests : List BatchWrite) (error : Error)
  | transaction (entity : String) (error : Error)
  deriving DecidableEq

/-- What became of a batch write, or of a part of it. -/
structure BatchWriteOutcome where
  /-- The requests still unprocessed after the last attempt. -/
  unprocessed : List BatchWrite := []
  failed : List FailedWrite := []
  deriving DecidableEq

def BatchWriteOutcome.isSuccess (outcome : BatchWriteOutcome) : Bool :=
  outcome.unprocessed.isEmpty && outcome.failed.isEmpty

def BatchWriteOutcome.join (outcomes : List BatchWriteOutcome) : BatchWriteOutcome :=
  ⟨outcomes.flatMap (·.unprocessed), outcomes.flatMap (·.failed)⟩

structure FailedRead where
  keys : List KeyRef
  error : Error
  deriving DecidableEq

/-- What became of a batch read, or of a part of it. -/
structure BatchReadOutcome (α : Type) where
  items : List α := []
  /-- The keys still unprocessed after the last attempt. -/
  unprocessed : List KeyRef := []
  failed : List FailedRead := []
  deriving DecidableEq

def BatchReadOutcome.isSuccess {α : Type} (outcome : BatchReadOutcome α) : Bool :=
  outcome.unprocessed.isEmpty && outcome.failed.isEmpty

def BatchReadOutcome.join {α : Type} (outcomes : List (BatchReadOutcome α)) :
    BatchReadOutcome α :=
  ⟨outcomes.flatMap (·.items), outcomes.flatMap (·.unprocessed), outcomes.flatMap (·.failed)⟩

def chunks {α : Type} (size : Nat) : List α → List (List α)
  | [] => []
  | x :: xs => (x :: xs.take (size - 1)) :: chunks size (xs.drop (size - 1))
termination_by xs => xs.length
decreasing_by simp only [List.length_drop, List.length_cons]; omega

namespace Connection

/-! ## Building batches -/

/-- The batch item that creates an entity.  An entity without unique attributes is written
unconditionally. -/
def batchCreate {α : Type} [Storable α] (connection : Connection) (draw : String → Moment)
    (typeName : String) (value : α) : Except Error BatchItem := do
  let entity ← connection.entity typeName
  let attributes ← ConversionError.lift (Storable.toItem value)
  if entity.hasUniques then
    return .transactional entity.name (← entity.createWrite draw attributes {})
  else
    let (put, _) ← entity.createOperations draw attributes { overwrite := true }
    return .plain (.put put.table put.item)

def batchDelete (connection : Connection) (typeName : String) (key : Item) :
    Except Error BatchItem := do
  let entity ← connection.entity typeName
  match ← entity.deleteWrite key {} with
  | .direct [.delete request] => return .plain (.delete request.table request.key)
  | write => return .transactional entity.name write

def batchKey (connection : Connection) (typeName : String) (key : Item) :
    Except Error KeyRef := do
  (← connection.entity typeName).keyRef key

/-! ## Writing -/

/-- Write one chunk, and send again what is left unprocessed at most `retries` times.
`attempt` counts the attempts made before. -/
def writeChunk (policy : RetryPolicy) :
    (retries attempt : Nat) → List BatchWrite → Dialogue BatchWriteOutcome
  | 0, _, pending =>
    .ask (.batchWrite pending) fun
      | .error error => .done { failed := [.batch pending error] }
      | .ok unprocessed => .done { unprocessed }
  | retries + 1, attempt, pending =>
    .ask (.batchWrite pending) fun
      | .error error => .done { failed := [.batch pending error] }
      | .ok [] => .done {}
      | .ok unprocessed =>
        .pause (policy.ceiling attempt) (writeChunk policy retries (attempt + 1) unprocessed)

def writeAlone (connection : Connection) (entity : String) (write : PendingWrite) :
    Dialogue BatchWriteOutcome :=
  (connection.executeWrites [write]).run.bind fun
    | .ok () => .done {}
    | .error error => .done { failed := [.transaction entity error] }

def plainRequests (items : List BatchItem) : List BatchWrite :=
  items.filterMap fun
    | .plain request => some request
    | .transactional _ _ => none

def ownTransactions (items : List BatchItem) : List (String × PendingWrite) :=
  items.filterMap fun
    | .plain _ => none
    | .transactional entity write => some (entity, write)

/-- The parts of a batch as a pool.  Each part pauses at most once for each retry.  A batch
may have a limit of its own on the parts under way at the same time. -/
def batchPool {α : Type} (connection : Connection) (limit : Option Nat)
    (dialogues : List (Dialogue α)) : Pool α :=
  { dialogues
    width := limit.getD connection.config.maxConcurrency
    turns := dialogues.length * (connection.config.retry.maxRetries + 1) }

def batchWrites (connection : Connection) (items : List BatchItem) (limit : Option Nat) :
    Pool BatchWriteOutcome :=
  let policy := connection.config.retry
  connection.batchPool limit
    ((ownTransactions items).map (fun (entity, write) => connection.writeAlone entity write)
      ++ (chunks connection.config.maxBatchWriteItems (plainRequests items)).map
        (writeChunk policy policy.maxRetries 0))

/-! ## Reading -/

/-- Read one chunk, and send again what is left unprocessed at most `retries` times.
`attempt` counts the attempts made before, and `items` are those read by them. -/
def readChunk (policy : RetryPolicy) :
    (retries attempt : Nat) → (items : List Item) → List KeyRef →
      Dialogue (BatchReadOutcome Item)
  | 0, _, items, pending =>
    .ask (.batchRead pending) fun
      | .error error => .done { items, failed := [⟨pending, error⟩] }
      | .ok answer => .done { items := items ++ answer.items, unprocessed := answer.unprocessed }
  | retries + 1, attempt, items, pending =>
    .ask (.batchRead pending) fun
      | .error error => .done { items, failed := [⟨pending, error⟩] }
      | .ok ⟨more, []⟩ => .done { items := items ++ more }
      | .ok ⟨more, unprocessed⟩ =>
        .pause (policy.ceiling attempt)
          (readChunk policy retries (attempt + 1) (items ++ more) unprocessed)

def batchReads (connection : Connection) (keys : List KeyRef) (limit : Option Nat) :
    Pool (BatchReadOutcome Item) :=
  let policy := connection.config.retry
  connection.batchPool limit
    ((chunks connection.config.maxBatchReadItems keys).map
      (readChunk policy policy.maxRetries 0 []))

/-- The outcome of a batch read with its items attributed to their entities.  An item that cannot be
is kept as it is. -/
def attributed (connection : Connection) (outcome : BatchReadOutcome Item) :
    BatchReadOutcome LogicalItem :=
  { outcome with
    items := outcome.items.map (connection.registry.toLogicalItemOrUnknown connection.engine) }

end Connection

end SingleTable
