import SingleTable.NameMap

/-!
# Tables and their indexes

A table holds items under a partition key and, if it is composite, a sort key.  Secondary
indexes order the same items by other attributes: a global index brings its own partition
key, a local index shares the one of the table.
-/

namespace SingleTable

/-- The two kinds of secondary index. -/
inductive IndexKind where
  | globalIndex
  | localIndex
  deriving DecidableEq, Repr

def IndexKind.text : IndexKind → String
  | globalIndex => "GLOBAL_SECONDARY_INDEX"
  | localIndex => "LOCAL_SECONDARY_INDEX"

structure IndexDefinition where
  kind : IndexKind
  /-- The partition key attribute, which local indexes lack. -/
  partitionKey : Option String
  sortKey : String
  /-- Whether an item that lacks a key value is left out instead of refused. -/
  sparse : Bool
  deriving DecidableEq, Repr

/-- A table shared by one or more entities. -/
structure Table where
  name : String
  partitionKey : String
  /-- The sort key attribute of a composite table. -/
  sortKey : Option String
  indexes : NameMap IndexDefinition
  deriving DecidableEq

namespace Table

def isComposite (table : Table) : Bool := table.sortKey.isSome

def index? (table : Table) (name : String) : Option IndexDefinition := table.indexes.get? name

/-- The partition and the sort key attribute of an index; an index without a partition key
of its own uses that of the table. -/
def indexKeyAttributes? (table : Table) (name : String) : Option (String × String) :=
  (table.index? name).map fun definition =>
    (definition.partitionKey.getD table.partitionKey, definition.sortKey)

def keyAttributes (table : Table) : List String :=
  table.partitionKey :: table.sortKey.toList

end Table

end SingleTable
