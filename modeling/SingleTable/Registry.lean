import SingleTable.Entity.Logical

/-!
# Registered entities

A registry knows entities under their names, which stored items carry, and under the names
of the caller's types.  No two entities of a registry have the same name, so the marker of
an item tells which entity it belongs to.
-/

namespace SingleTable

/-- An entity registered for a type of the caller. -/
structure Registration where
  typeName : String
  entity : Entity

/-- The entities known to a connection, in order of registration. -/
structure Registry where
  registrations : List Registration := []

namespace Registry

def entities (registry : Registry) : List Entity := registry.registrations.map (·.entity)

def entity? (registry : Registry) (name : String) : Option Entity :=
  registry.entities.find? (·.name = name)

def ofType (registry : Registry) (typeName : String) : Except Error Entity :=
  match registry.registrations.find? (·.typeName = typeName) with
  | some registration => .ok registration.entity
  | none => .error (.entityNotRegistered typeName)

def size (registry : Registry) : Nat := registry.registrations.length

def isEmpty (registry : Registry) : Bool := registry.registrations.isEmpty

def tablesOf : List Entity → List Table
  | [] => []
  | entity :: rest => entity.table :: (tablesOf rest).filter (·.name ≠ entity.table.name)

def tables (registry : Registry) : List Table := tablesOf registry.entities

/-- Lay out a declaration on its table and register it for a type.  The name must be new. -/
def register (registry : Registry) (defaultTable : Option Table) (typeName : String)
    (declaration : Declaration) : Except Error Registry := do
  let entity ← declaration.compile defaultTable
  if (registry.entity? entity.name).isSome then
    throw (.duplicateEntity entity.name)
  return ⟨registry.registrations ++ [⟨typeName, entity⟩]⟩

def entityOf? (registry : Registry) (item : Item) : Option Entity := do
  let marker ← item.get? entityMarker
  let name ← marker.string?
  registry.entity? name

/-- An item attributed to its entity; one of no registered entity is kept as it is. -/
def toLogicalItem (registry : Registry) (engine : PatternEngine) (item : Item) :
    Except Error LogicalItem :=
  match registry.entityOf? item with
  | some entity => do
    return .known entity.name (← ConversionError.lift (entity.readAttributes engine item))
  | none => .ok (.unknown item)

/-- An item attributed to its entity if it can be, and else kept as it is. -/
def toLogicalItemOrUnknown (registry : Registry) (engine : PatternEngine) (item : Item) :
    LogicalItem :=
  match registry.toLogicalItem engine item with
  | .ok logical => logical
  | .error _ => .unknown item

end Registry

end SingleTable
