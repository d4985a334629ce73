import SingleTable.Condition
import SingleTable.Table

/-!
# Requests to the store

The requests that the library sends, one type per operation of the store.  A request names
the table, and carries its expressions as texts together with what their placeholders stand
for.
-/

namespace SingleTable

structure KeyRef where
  table : String
  key : Item
  deriving DecidableEq

structure GetRequest where
  table : String
  key : Item
  projection : Option String := none
  bindings : Bindings := {}
  consistent : Bool := false
  deriving DecidableEq

structure PutRequest where
  table : String
  item : Item
  condition : Option String := none
  bindings : Bindings := {}
  deriving DecidableEq

structure UpdateRequest where
  table : String
  key : Item
  update : String
  condition : Option String := none
  bindings : Bindings := {}
  deriving DecidableEq

structure DeleteRequest where
  table : String
  key : Item
  condition : Option String := none
  bindings : Bindings := {}
  deriving DecidableEq

/-- One operation of a write transaction. -/
inductive WriteOperation where
  | put (request : PutRequest)
  | update (request : UpdateRequest)
  | delete (request : DeleteRequest)
  deriving DecidableEq

namespace WriteOperation

def table : WriteOperation → String
  | put request => request.table
  | update request => request.table
  | delete request => request.table

def stringFields (item : Item) : List String :=
  (item.entries.filterMap fun (name, value) =>
    value.string?.map fun text => name ++ "=" ++ text).mergeSort fun a b => a ≤ b

def display (operation : WriteOperation) : String :=
  let (verb, item) := match operation with
    | put request => ("Put", request.item)
    | update request => ("Update", request.key)
    | delete request => ("Delete", request.key)
  verb ++ " " ++ operation.table ++ "(" ++ ", ".intercalate (stringFields item) ++ ")"

end WriteOperation

/-- One request of a batch write; it is not conditional. -/
inductive BatchWrite where
  | put (table : String) (item : Item)
  | delete (table : String) (key : Item)
  deriving DecidableEq

def BatchWrite.table : BatchWrite → String
  | put table _ => table
  | delete table _ => table

/-- Read a page of the items of one partition. -/
structure QueryRequest where
  table : String
  index : Option String := none
  keyCondition : String
  filter : Option String := none
  projection : Option String := none
  bindings : Bindings := {}
  /-- The number of items evaluated at most. -/
  limit : Option Nat := none
  ascending : Bool := true
  /-- The key after which the page starts. -/
  start : Option Item := none
  consistent : Bool := false
  deriving DecidableEq

/-- Read a page of a whole table or index. -/
structure ScanRequest where
  table : String
  index : Option String := none
  filter : Option String := none
  projection : Option String := none
  bindings : Bindings := {}
  /-- The number of items evaluated at most. -/
  limit : Option Nat := none
  segment : Option Int := none
  totalSegments : Option Int := none
  /-- The key after which the page starts. -/
  start : Option Item := none
  deriving DecidableEq

structure Page where
  items : List Item := []
  /-- The key after which the next page starts; there is none after the last. -/
  next : Option Item := none
  /-- The number of items evaluated, before filtering. -/
  scanned : UInt64 := 0
  /-- The read capacity that the page used. -/
  capacity : Option Float := none

/-! ## Options of operations -/

/-- A limit on the effort of reading pages. -/
inductive EffortLimit where
  | capacity (units : Float)
  | scanned (items : UInt64)

structure CreateOptions where
  /-- Replace an item that exists already. -/
  overwrite : Bool := false
  condition : Option Condition := none

structure GetOptions where
  /-- The paths to read; all if not given. -/
  select : Option (List String) := none
  consistent : Bool := false

structure UpdateOptions where
  condition : Option Condition := none
  /-- Values of attributes that keys are derived from and the update does not assign. -/
  context : Item := ∅

structure DeleteOptions where
  condition : Option Condition := none

/-- The partition that a query reads. -/
inductive Partition where
  /-- The partition of some attributes. -/
  | attributes (attributes : Item)
  /-- The partition of a physical key text. -/
  | raw (key : String)

structure QueryOptions where
  index : Option String := none
  sort : Option SortKeyTest := none
  condition : Option Condition := none
  select : Option (List String) := none
  descending : Bool := false
  limit : Option Nat := none
  cursor : Option Item := none
  effort : Option EffortLimit := none
  consistent : Bool := false

structure ScanOptions where
  index : Option String := none
  condition : Option Condition := none
  select : Option (List String) := none
  limit : Option Nat := none
  cursor : Option Item := none
  effort : Option EffortLimit := none
  segment : Option Int := none
  totalSegments : Option Int := none

end SingleTable
