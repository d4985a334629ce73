import SingleTable.Entity.Logical
import SingleTable.Request

/-!
# Write requests of an entity

A write of an entity is one operation on its item and, for each unique attribute, one on the
record that holds the value: a put that fails if the record exists, or a delete.

Creates know the whole item.  Updates and deletes that touch unique values do not know the
values to release, so they are pending until the item has been read: `PendingWrite.afterRead`
says which item to read and what to do with it.
-/

namespace SingleTable

/-- A write that may need the current item before its operations are known. -/
inductive PendingWrite where
  /-- Operations that are ready, that on the item first. -/
  | direct (operations : List WriteOperation)
  /-- Operations that follow from the current item, or from there being none. -/
  | afterRead (entity : String) (item : KeyRef)
      (resolve : Option Item → Except Error (List WriteOperation))

/-- Whether a write needs a transaction: it reads first, or has several operations. -/
def PendingWrite.isTransactional : PendingWrite → Bool
  | direct operations => 1 < operations.length
  | afterRead _ _ _ => true

namespace Entity

def keyAbsent (entity : Entity) : Condition :=
  match entity.table.sortKey with
  | some sortKey => (Condition.absent entity.table.partitionKey).and (.absent sortKey)
  | none => .absent entity.table.partitionKey

def keyPresent (entity : Entity) : Condition := .present entity.table.partitionKey

def writeCondition : Option Condition → Except Error (Option String × Bindings)
  | none => .ok (none, {})
  | some condition => Binding.collect (Binding.absorbCompiled (condition.compile .condition))

def claim (entity : Entity) (record : Item) : Except Error WriteOperation := do
  let (condition, bindings) ← writeCondition (some entity.keyAbsent)
  return .put { table := entity.table.name, item := record, condition, bindings }

def release (entity : Entity) (record : Item) : WriteOperation :=
  .delete { table := entity.table.name, key := record }

/-! ## Create -/

/-- The condition of a create: unless it may overwrite, no item has the key. -/
def createCondition (entity : Entity) (options : CreateOptions) : Option Condition :=
  if options.overwrite then options.condition
  else some (entity.keyAbsent.andOption options.condition)

def createOperations (entity : Entity) (draw : String → Moment) (attributes : Item)
    (options : CreateOptions) : Except Error (PutRequest × List WriteOperation) := do
  let item ← entity.toPhysical draw attributes
  let (condition, bindings) ← writeCondition (entity.createCondition options)
  let records ← entity.uniqueRecords item
  let claims ← records.mapM fun (_, record) => entity.claim record
  return ({ table := entity.table.name, item, condition, bindings }, claims)

def createWrite (entity : Entity) (draw : String → Moment) (attributes : Item)
    (options : CreateOptions) : Except Error PendingWrite := do
  let (put, claims) ← entity.createOperations draw attributes options
  return .direct (.put put :: claims)

/-! ## Update -/

def checkIdentity (entity : Entity) (body : UpdateBody) : Except Error Unit :=
  body.actions.forM fun (path, _) =>
    let name := Path.top path
    if entity.isKeyAttribute name then throw (.primaryKeyUpdate entity.name name)
    else return ()

/-- The body with a new value for each attribute that every update makes anew. -/
def withGenerated (entity : Entity) (draw : String → Moment) (body : UpdateBody) :
    UpdateBody :=
  entity.attributes.foldl
    (fun body attr =>
      match attr.generated with
      | some rule =>
        if rule.onUpdate && (body.get? attr.name).isNone then
          body.push attr.name (.set (rule.strategy.generate (draw attr.name)))
        else body
      | none => body)
    body

def updateClauses (body : UpdateBody) (changes : KeyChanges) : Except Error UpdateClauses := do
  let clauses ← body.clauses
  let follow := changes.set.map (fun (attr, value) => (attr, UpdateAction.set value))
    ++ changes.remove.map fun attr => (attr, UpdateAction.remove)
  match (Updating.applyAll follow).run.run clauses with
  | (.ok (), clauses) => return clauses
  | (.error e, _) => throw e

/-- The new values of unique attributes that a body changes; a cleared one has none. -/
def changedUniques (entity : Entity) (body : UpdateBody) :
    List UniqueLayout → Except Error (List (String × Option Value))
  | [] => .ok []
  | unique :: rest =>
    match body.get? unique.attr with
    | none => entity.changedUniques body rest
    | some action =>
      if action.clears then return (unique.attr, none) :: (← entity.changedUniques body rest)
      else
        match action.literal? with
        | some value => return (unique.attr, some value) :: (← entity.changedUniques body rest)
        | none => throw (.dynamicKeyUpdate unique.attr unique.key.partition.attr)

/-- The claims and releases of some changes of unique values, given the current item.  A
value that stays the same is neither claimed nor released. -/
def exchange (entity : Entity) (prior : Option Item) :
    List (String × Option Value) → Except Error (List WriteOperation × List WriteOperation)
  | [] => .ok ([], [])
  | (name, new) :: rest => do
    let old := prior.bind (·.present? name)
    -- the record of an unchanged value stays as it is
    if old = new then
      entity.exchange prior rest
    else
      let claims ← match new with
        | none => pure []
        | some value =>
          match ← entity.uniqueRecord name value with
          | none => pure []
          | some record => pure [← entity.claim record]
      let releases ← match old with
        | none => pure []
        | some value =>
          match ← entity.uniqueRecord name value with
          | none => pure []
          | some record => pure [entity.release record]
      let (otherClaims, otherReleases) ← entity.exchange prior rest
      return (claims ++ otherClaims, releases ++ otherReleases)

/-- The operations of an update that changes unique values, given the current item: the
change itself, all claims, then all releases. -/
def resolveUpdate (entity : Entity) (main : WriteOperation)
    (changes : List (String × Option Value)) (prior : Option Item) :
    Except Error (List WriteOperation) := do
  let (claims, releases) ← entity.exchange prior changes
  return main :: claims ++ releases

def updateWrite (entity : Entity) (draw : String → Moment) (attributes : Item)
    (body : UpdateBody) (options : UpdateOptions) : Except Error PendingWrite := do
  let key ← entity.primaryKey attributes
  entity.checkIdentity body
  -- generated values can move an index too, so they come before the keys
  let body := entity.withGenerated draw body
  let changes ← entity.affectedIndexes body (options.context.union attributes)
  let clauses ← updateClauses body changes
  let ((update, condition), bindings) ← Binding.collect do
    let update ← Binding.absorbCompiled (clauses.compile.map some)
    let condition ← Binding.absorbCompiled
      ((entity.keyPresent.andOption options.condition).compile .condition)
    return (update, condition)
  let main := WriteOperation.update
    { table := entity.table.name, key, update := update.getD "", condition, bindings }
  let changed ← entity.changedUniques body entity.uniques
  if changed.isEmpty then
    return .direct [main]
  else
    return .afterRead entity.name ⟨entity.table.name, key⟩ (entity.resolveUpdate main changed)

/-! ## Delete -/

def releases (entity : Entity) (prior : Item) :
    List UniqueLayout → Except Error (List WriteOperation)
  | [] => .ok []
  | unique :: rest =>
    match prior.present? unique.attr with
    | none => entity.releases prior rest
    | some value => do
      let first ← match ← entity.uniqueRecord unique.attr value with
        | none => pure []
        | some record => pure [entity.release record]
      return first ++ (← entity.releases prior rest)

def resolveDelete (entity : Entity) (main : WriteOperation) (prior : Option Item) :
    Except Error (List WriteOperation) :=
  match prior with
  | none => .ok [main]
  | some item => do return main :: (← entity.releases item entity.uniques)

def deleteWrite (entity : Entity) (attributes : Item) (options : DeleteOptions) :
    Except Error PendingWrite := do
  let key ← entity.primaryKey attributes
  let (condition, bindings) ← writeCondition options.condition
  let main := WriteOperation.delete { table := entity.table.name, key, condition, bindings }
  if entity.hasUniques then
    return .afterRead entity.name ⟨entity.table.name, key⟩ (entity.resolveDelete main)
  else
    return .direct [main]

end Entity

end SingleTable
