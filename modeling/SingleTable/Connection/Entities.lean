import SingleTable.Connection.Transactions
import SingleTable.Store.Paging

/-!
# Single entities

Creating, reading, updating and deleting one entity, and finding or counting those of a
partition.  A write that has to claim or release unique values is a transaction; any other
is a single call.
-/

namespace SingleTable

variable {α : Type} [Storable α]

/-- The values that some items store; fails at the first that has none. -/
def Entity.readValues (entity : Entity) (engine : PatternEngine) (items : List Item) :
    Except Error (List α) :=
  items.mapM (entity.readValue engine)

namespace Connection

/-- Write a new entity; the result is the entity with defaults and generated values. -/
def create (connection : Connection) (draw : String → Moment) (typeName : String)
    (value : α) (options : CreateOptions) : Operation α := do
  let entity ← connection.entity typeName
  let attributes ← ConversionError.lift (Storable.toItem value)
  let (put, claims) ← entity.createOperations draw attributes options
  if claims.isEmpty then
    Operation.ask (.put put)
  else
    connection.executeWrites [.direct (.put put :: claims)]
  entity.readValue connection.engine put.item

def findOne (connection : Connection) (typeName : String) (key : Item)
    (options : GetOptions) : Operation (Option α) := do
  let entity ← connection.entity typeName
  let request ← entity.getRequest key options
  match ← Operation.ask (.get request) with
  | some item => return some (← entity.readValue connection.engine item)
  | none => return none

/-- The key that tells whether an entity with some attributes exists: that of the uniqueness
record if a single unique attribute is given, else the primary key. -/
def existenceKey (entity : Entity) (attributes : Item) : Except Error Item := do
  let record ← match attributes.entries with
    | [(name, value)] => entity.uniqueRecord name value
    | _ => pure none
  match record with
  | some key => return key
  | none => entity.primaryKey attributes

def present (connection : Connection) (typeName : String) (attributes : Item) :
    Operation Bool := do
  let entity ← connection.entity typeName
  let key ← existenceKey entity attributes
  let item ← Operation.ask (.get { table := entity.table.name, key })
  return item.isSome

def update (connection : Connection) (draw : String → Moment) (typeName : String)
    (key : Item) (body : UpdateBody) (options : UpdateOptions) : Operation α := do
  let entity ← connection.entity typeName
  let updated ← match ← entity.updateWrite draw key body options with
    | .direct [.update request] => Operation.ask (.update request)
    | .direct [_] => pure none
    | write => do
      connection.executeWrites [write]
      -- a transaction answers no item, so the entity is read again
      let request ← entity.getRequest key { consistent := true }
      Operation.ask (.get request)
  match updated with
  | some item => entity.readValue connection.engine item
  | none => throw (.entityNotFound entity.name)

def delete (connection : Connection) (typeName : String) (key : Item)
    (options : DeleteOptions) : Operation Unit := do
  let entity ← connection.entity typeName
  match ← entity.deleteWrite key options with
  | .direct [.delete request] => Operation.ask (.delete request)
  | .direct [_] => return
  | write => connection.executeWrites [write]

/-! ## Partitions -/

def queryPages (request : QueryRequest) (paging : Paging) (pages : Nat) :
    Operation Progress :=
  paging.read
    (fun cursor size => Operation.ask
      (.query { request with limit := some size, start := cursor }))
    request.start pages

/-- The number that stands for no limit. -/
def unlimited : Nat := UInt64.size - 1

/-- The entities of a partition.  At most a number of pages is read. -/
def find (connection : Connection) (typeName : String) (partition : Partition)
    (options : QueryOptions) (pages : Nat) : Operation (Found α) := do
  let entity ← connection.entity typeName
  let request ← entity.queryRequest partition options
  let limit := options.limit.getD connection.config.defaultQueryLimit
  let progress ← queryPages request { limit, effort := options.effort } pages
  return ⟨← entity.readValues connection.engine progress.items, progress.cursor⟩

/-- The number of entities of a partition.  The default limit does not apply. -/
def count (connection : Connection) (typeName : String) (partition : Partition)
    (options : QueryOptions) (pages : Nat) : Operation Nat := do
  let entity ← connection.entity typeName
  let request ← entity.queryRequest partition options
  let limit := options.limit.getD unlimited
  let progress ← queryPages request { limit, effort := options.effort, keep := false } pages
  return progress.count

end Connection

end SingleTable
