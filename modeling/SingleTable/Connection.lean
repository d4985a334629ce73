import SingleTable.Config
import SingleTable.Registry
import SingleTable.Store.Dialogue

/-!
# Connections

A connection holds the registered entities, the table of those that name none, the limits that
operations keep to, and the engine that reads keys back.  The operations themselves are in the
modules below this one; each is a dialogue with the store.
-/

namespace SingleTable

/-- Entities, their default table, limits, and an engine for the patterns of keys. -/
structure Connection where
  registry : Registry := {}
  defaultTable : Option Table := none
  config : Config := {}
  engine : PatternEngine := .lenient

namespace Connection

def registerAll (defaultTable : Option Table) :
    List (String × Declaration) → Registry → Except Error Registry
  | [], registry => .ok registry
  | (typeName, declaration) :: rest, registry => do
    registerAll defaultTable rest (← registry.register defaultTable typeName declaration)

def build (declarations : List (String × Declaration)) (defaultTable : Option Table)
    (config : Config) : Except Error Connection := do
  return { registry := ← registerAll defaultTable declarations {}, defaultTable, config }

/-- The table that scans of a whole table read: the default table, or the only table that
entities use. -/
def scanTable (connection : Connection) : Except Error Table :=
  match connection.defaultTable with
  | some table => .ok table
  | none =>
    match connection.registry.tables with
    | [table] => .ok table
    | _ => .error (.missingTable "*")

def entity (connection : Connection) (typeName : String) : Except Error Entity :=
  connection.registry.ofType typeName

def toLogicalItem (connection : Connection) (item : Item) : Except Error LogicalItem :=
  connection.registry.toLogicalItem connection.engine item

/-- Items read from such a table; fails at the first that cannot be converted. -/
def toLogicalItems (connection : Connection) (items : List Item) :
    Except Error (List LogicalItem) :=
  items.mapM connection.toLogicalItem

end Connection

/-- Some items of a partition or a table, and where to go on. -/
structure Found (α : Type) where
  items : List α
  /-- The cursor of the next items; there is none when nothing is left. -/
  cursor : Option Item
  deriving DecidableEq

end SingleTable
