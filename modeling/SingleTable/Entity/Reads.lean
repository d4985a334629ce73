import SingleTable.Entity.Physical
import SingleTable.Request

/-!
# Read requests of an entity

Reading by key asks for exactly one item.  Queries and scans meet the items of other
entities in the same table, so they always filter by the entity's marker, and a projection
always reads the marker too.
-/

namespace SingleTable

/-- The paths to read, with the marker added if it is missing. -/
def withMarker (select : List String) : List String :=
  if select.contains entityMarker then select else select ++ [entityMarker]

/-- The projection to selected paths, if a selection is given. -/
def projectionOf : Option (List String) → Except Error (Option CompiledExpression)
  | none => .ok none
  | some paths => Projection.compile paths

def Table.scanRequest (table : Table) (filter : Option Condition) (options : ScanOptions) :
    Except Error ScanRequest := do
  if let some index := options.index then
    if (table.index? index).isNone then
      throw (.unknownIndex index table.name)
  let ((filter, projection), bindings) ← Binding.collect do
    let filter ← match filter <|> options.condition with
      | none => pure none
      | some condition => Binding.absorbCompiled (condition.compile .filter)
    let projection ← Binding.absorbCompiled (projectionOf (options.select.map withMarker))
    return (filter, projection)
  return {
    table := table.name
    index := options.index
    filter
    projection
    bindings
    segment := options.segment
    totalSegments := options.totalSegments
    start := options.cursor }

namespace Entity

def getRequest (entity : Entity) (attributes : Item) (options : GetOptions) :
    Except Error GetRequest := do
  let key ← entity.primaryKey attributes
  let (projection, bindings) ←
    Binding.collect (Binding.absorbCompiled (projectionOf options.select))
  return { table := entity.table.name, key, projection, bindings,
           consistent := options.consistent }

def keyRef (entity : Entity) (attributes : Item) : Except Error KeyRef := do
  return ⟨entity.table.name, ← entity.primaryKey attributes⟩

def ownItems (entity : Entity) (condition : Option Condition) : Condition :=
  (Condition.equals entityMarker (.string entity.name)).andOption condition

def queryKey (entity : Entity) : Option String → Except Error (KeyPart × Option String)
  | none => .ok (entity.key.partition, entity.table.sortKey)
  | some name => do
    let some (_, sortKey) := entity.table.indexKeyAttributes? name
      | throw (.unknownIndex name entity.table.name)
    let some index := entity.index? name
      | throw (.indexNotDeclared name entity.name)
    return (index.partition.getD entity.key.partition, some sortKey)

def partitionValue (part : KeyPart) : Partition → Except Error Value
  | .raw key => .ok (.string key)
  | .attributes attributes =>
    match part.template.interpolate .strict attributes with
    | .ok value => .ok value
    | .error e => .error e.toError

/-- The test of the sort key that a query asks for; there must be a sort key to test. -/
def sortTest (sortKey : Option String) (source : String) :
    Option SortKeyTest → Except Error (Option (String × SortKeyTest))
  | none => .ok none
  | some test =>
    match sortKey with
    | some name => .ok (some (name, test))
    | none => .error (.sortKeyNotSupported source)

def queryRequest (entity : Entity) (partition : Partition) (options : QueryOptions) :
    Except Error QueryRequest := do
  let (part, sortKey) ← entity.queryKey options.index
  let value ← partitionValue part partition
  let sort ← sortTest sortKey (options.index.getD entity.table.name) options.sort
  let ((keyCondition, filter, projection), bindings) ← Binding.collect do
    let keyCondition ← Binding.absorbCompiled (KeyCondition.compile ⟨part.attr, value, sort⟩)
    let filter ← Binding.absorbCompiled ((entity.ownItems options.condition).compile .filter)
    let projection ← Binding.absorbCompiled (projectionOf (options.select.map withMarker))
    return (keyCondition, filter, projection)
  return {
    table := entity.table.name
    index := options.index
    keyCondition := keyCondition.getD ""
    filter
    projection
    bindings
    ascending := !options.descending
    start := options.cursor
    consistent := options.consistent }

def scanRequest (entity : Entity) (options : ScanOptions) : Except Error ScanRequest := do
  if let some index := options.index then
    if (entity.index? index).isNone then
      throw (.indexNotDeclared index entity.name)
  entity.table.scanRequest (some (entity.ownItems options.condition)) options

end Entity

end SingleTable
