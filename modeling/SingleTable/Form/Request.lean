import SingleTable.Entity.Logical
import SingleTable.Form.Value
import SingleTable.Request

/-!
# The form of requests

Requests are written in full: a part that a request does not have is null.
-/

namespace SingleTable.Form

def ofCompiled (expression : CompiledExpression) : Document :=
  object [("expression", .string expression.text),
    ("names", ofNonempty .string expression.bindings.names),
    ("values", ofNonempty ofValue expression.bindings.values)]

def ofBindings (bindings : Bindings) : List (String × Document) :=
  [("names", ofNonempty .string bindings.names), ("values", ofNonempty ofValue bindings.values)]

def ofPut (r : PutRequest) : Document :=
  object ([("table", .string r.table), ("item", ofItem r.item),
    ("condition", option .string r.condition)] ++ ofBindings r.bindings)

def ofUpdate (r : UpdateRequest) : Document :=
  object ([("table", .string r.table), ("key", ofItem r.key), ("update", .string r.update),
    ("condition", option .string r.condition)] ++ ofBindings r.bindings)

def ofDelete (r : DeleteRequest) : Document :=
  object ([("table", .string r.table), ("key", ofItem r.key),
    ("condition", option .string r.condition)] ++ ofBindings r.bindings)

def ofOperation (operation : WriteOperation) : Document :=
  let main := match operation with
    | .put r => ("put", ofPut r)
    | .update r => ("update", ofUpdate r)
    | .delete r => ("delete", ofDelete r)
  object [main, ("text", .string operation.display), ("on", .string operation.table)]

def ofGet (r : GetRequest) : Document :=
  object [("table", .string r.table), ("key", ofItem r.key),
    ("projection", option .string r.projection),
    ("names", ofNonempty .string r.bindings.names), ("consistent_read", .boolean r.consistent)]

def ofKeyRef (r : KeyRef) : Document :=
  object [("table", .string r.table), ("key", ofItem r.key)]

def ofQuery (r : QueryRequest) : Document :=
  object ([("table", .string r.table), ("index", option .string r.index),
    ("key_condition", .string r.keyCondition), ("filter", option .string r.filter),
    ("projection", option .string r.projection), ("limit", option count r.limit),
    ("forward", .boolean r.ascending), ("start", option ofItem r.start),
    ("consistent_read", .boolean r.consistent)] ++ ofBindings r.bindings)

def ofScan (r : ScanRequest) : Document :=
  object ([("table", .string r.table), ("index", option .string r.index),
    ("filter", option .string r.filter), ("projection", option .string r.projection),
    ("limit", option count r.limit), ("segment", option .integer r.segment),
    ("total_segments", option .integer r.totalSegments), ("start", option ofItem r.start)]
    ++ ofBindings r.bindings)

def ofBatchWrite : BatchWrite → Document
  | .put table i => object [("put", ofItem i), ("table", .string table)]
  | .delete table key => object [("delete", ofItem key), ("table", .string table)]

def ofLogical : LogicalItem → Document
  | .known entity attributes =>
    object [("known", .string entity), ("attributes", ofItem attributes)]
  | .unknown i => object [("unknown", ofItem i)]

end SingleTable.Form
