import SingleTable.Entity

/-!
# From attributes to items

An item holds the attributes of an entity and, besides them, the values of its primary key
and of every index, and the marker that names the entity.  Each index is written as a whole
or not at all.
-/

namespace SingleTable

def KeyPart.resolveAll (mode : Completeness) (attributes : Item) :
    List KeyPart → Except InterpolationError (List (String × Value))
  | [] => .ok []
  | part :: rest => do
    let value ← part.template.interpolate mode attributes
    let others ← resolveAll mode attributes rest
    return (part.attr, value) :: others

def Key.resolve (key : Key) (attributes : Item) : Except Error Item :=
  match KeyPart.resolveAll .strict attributes key.parts with
  | .ok values => .ok (NameMap.ofList values)
  | .error e => .error e.toError

/-- Whether a missing value leaves an index out or is an error. -/
def IndexLayout.mode (index : IndexLayout) : Completeness :=
  if index.sparse then .sparse else .strict

namespace Entity

/-! ## Defaults -/

/-- The value an attribute takes when the caller leaves it out. -/
def fillIn? (attr : Attribute) (draw : String → Moment) (attributes : Item) : Option Value :=
  match attr.generated, attr.default with
  | some rule, _ => some (rule.strategy.generate (draw attr.name))
  | none, some rule => rule.resolve attributes
  | none, none => none

def fillAll (draw : String → Moment) : List Attribute → Item → Item
  | [], attributes => attributes
  | attr :: rest, attributes =>
    if attributes.contains attr.name then fillAll draw rest attributes
    else
      match fillIn? attr draw attributes with
      | some value => fillAll draw rest (attributes.insert attr.name value)
      | none => fillAll draw rest attributes

/-- The attributes with generated and default values for those left out.  A null counts as
left out; every other value is kept.  `draw` gives the moment for each attribute. -/
def applyDefaults (entity : Entity) (draw : String → Moment) (attributes : Item) : Item :=
  fillAll draw entity.attributes (attributes.filter fun _ value => !value.isNull)

/-! ## Keys -/

def primaryKey (entity : Entity) (attributes : Item) : Except Error Item :=
  entity.key.resolve attributes

def uniqueRecord (entity : Entity) (attr : String) (value : Value) :
    Except Error (Option Item) :=
  match entity.unique? attr with
  | none => .ok none
  | some unique => some <$> unique.key.resolve (Item.single attr value)

/-- The keys of the uniqueness records of an item, by attribute.  Every unique attribute
must have a value. -/
def uniqueRecords (entity : Entity) (attributes : Item) :
    Except Error (List (String × Item)) :=
  entity.uniques.mapM fun unique =>
    match attributes.present? unique.attr with
    | none => .error (.missingUnique entity.name unique.attr)
    | some _ => return (unique.attr, ← unique.key.resolve attributes)

/-! ## Items -/

/-- Add the values of indexes to an item; an index without its values is left out if it is
sparse. -/
def addIndexes (attributes : Item) : List IndexLayout → Item → Except Error Item
  | [], item => .ok item
  | index :: rest, item =>
    match KeyPart.resolveAll index.mode attributes index.parts with
    | .ok values => addIndexes attributes rest (item.insertAll values)
    | .error (.sparseSkip _) => addIndexes attributes rest item
    | .error e => .error e.toError

def toPhysical (entity : Entity) (draw : String → Moment) (attributes : Item) :
    Except Error Item := do
  let attributes := entity.applyDefaults draw attributes
  let key ← entity.primaryKey attributes
  let item ← addIndexes attributes entity.indexes (attributes.union key)
  return item.insert entityMarker (.string entity.name)

end Entity

end SingleTable
