import SingleTable.Form.Request
import SingleTable.Store.Call
import SingleTable.Text.Blank
import SingleTable.Wire.Base64

/-!
# Requests to the service

The service is asked by documents: each call has a target, and a body whose members are
named by the service.  A member that a request has no value for is left out.  Some calls
cannot be expressed and make no request at all.
-/

namespace SingleTable.Wire

structure Request where
  target : String
  body : Document

def target : Call → String
  | .get _ => "GetItem"
  | .put _ => "PutItem"
  | .update _ => "UpdateItem"
  | .delete _ => "DeleteItem"
  | .query _ => "Query"
  | .scan _ => "Scan"
  | .batchWrite _ => "BatchWriteItem"
  | .batchRead _ => "BatchGetItem"
  | .transactRead _ => "TransactGetItems"
  | .transactWrite _ => "TransactWriteItems"

/-! ## Members -/

/-- A member that is left out if it has no value. -/
def given {α : Type} (name : String) (write : α → Document) :
    Option α → List (String × Document)
  | none => []
  | some x => [(name, write x)]

def tableName (table : String) : String × Document := ("TableName", .string table)

def names (bindings : Bindings) : List (String × Document) :=
  given "ExpressionAttributeNames" (Form.ofNameMap .string) bindings.names.nonempty?

def placeholders (bindings : Bindings) : List (String × Document) :=
  names bindings ++ given "ExpressionAttributeValues"
    (Form.ofNameMap (Form.writeValue base64)) bindings.values.nonempty?

def condition (text : Option String) : List (String × Document) :=
  given "ConditionExpression" .string text

/-! ## Bodies -/

def getMembers (r : GetRequest) : List (String × Document) :=
  [tableName r.table, ("Key", ofItem r.key)]
    ++ given "ProjectionExpression" .string r.projection ++ names r.bindings

def putMembers (r : PutRequest) : List (String × Document) :=
  [tableName r.table, ("Item", ofItem r.item)] ++ condition r.condition
    ++ placeholders r.bindings

def updateMembers (r : UpdateRequest) : List (String × Document) :=
  [tableName r.table, ("Key", ofItem r.key), ("UpdateExpression", .string r.update)]
    ++ condition r.condition ++ placeholders r.bindings

def deleteMembers (r : DeleteRequest) : List (String × Document) :=
  [tableName r.table, ("Key", ofItem r.key)] ++ condition r.condition
    ++ placeholders r.bindings

def queryMembers (r : QueryRequest) : List (String × Document) :=
  [tableName r.table, ("KeyConditionExpression", .string r.keyCondition),
    ("ScanIndexForward", .boolean r.ascending), ("ConsistentRead", .boolean r.consistent),
    ("ReturnConsumedCapacity", .string "TOTAL")]
    ++ given "IndexName" .string r.index ++ given "FilterExpression" .string r.filter
    ++ given "ProjectionExpression" .string r.projection ++ placeholders r.bindings
    ++ given "Limit" Form.count r.limit ++ given "ExclusiveStartKey" ofItem r.start

def scanMembers (r : ScanRequest) : List (String × Document) :=
  [tableName r.table, ("ReturnConsumedCapacity", .string "TOTAL")]
    ++ given "IndexName" .string r.index ++ given "FilterExpression" .string r.filter
    ++ given "ProjectionExpression" .string r.projection ++ placeholders r.bindings
    ++ given "Limit" Form.count r.limit ++ given "Segment" .integer r.segment
    ++ given "TotalSegments" .integer r.totalSegments
    ++ given "ExclusiveStartKey" ofItem r.start

def byTable {α : Type} (things : List (String × α)) : NameMap (List α) :=
  things.foldl
    (fun groups (table, thing) =>
      groups.insert table ((groups.get? table).getD [] ++ [thing]))
    ∅

def batchEntry : BatchWrite → String × Document
  | .put table i => (table, Form.object [("PutRequest", Form.object [("Item", ofItem i)])])
  | .delete table key =>
    (table, Form.object [("DeleteRequest", Form.object [("Key", ofItem key)])])

def operationEntry : WriteOperation → Document
  | .put r => Form.object [("Put", Form.object (putMembers r))]
  | .update r => Form.object [("Update", Form.object (updateMembers r))]
  | .delete r => Form.object [("Delete", Form.object (deleteMembers r))]

def bodyMembers : Call → List (String × Document)
  | .get r => ("ConsistentRead", .boolean r.consistent) :: getMembers r
  | .put r => putMembers r
  | .update r => ("ReturnValues", .string "ALL_NEW") :: updateMembers r
  | .delete r => deleteMembers r
  | .query r => queryMembers r
  | .scan r => scanMembers r
  | .batchWrite requests =>
    [("RequestItems", Form.ofNameMap .array (byTable (requests.map batchEntry)))]
  | .batchRead keys =>
    [("RequestItems", Form.ofNameMap (fun group => Form.object [("Keys", .array group)])
      (byTable (keys.map fun ref => (ref.table, ofItem ref.key))))]
  | .transactRead requests =>
    [("TransactItems", Form.array
      (fun r => Form.object [("Get", Form.object (getMembers r))]) requests)]
  | .transactWrite operations => [("TransactItems", Form.array operationEntry operations)]

/-! ## Calls without a request -/

/-- The items of an operation of a transaction: its item or key, and the values of its
placeholders. -/
def operationItems : WriteOperation → List Item
  | .put r => [r.item, r.bindings.values]
  | .update r => [r.key, r.bindings.values]
  | .delete r => [r.key, r.bindings.values]

def carriedItems : Call → List Item
  | .get r => [r.key]
  | .put r => operationItems (.put r)
  | .update r => operationItems (.update r)
  | .delete r => operationItems (.delete r)
  | .query r => r.bindings.values :: r.start.toList
  | .scan r => r.bindings.values :: r.start.toList
  | .batchWrite requests => requests.map fun
    | .put _ i => i
    | .delete _ key => key
  | .batchRead keys => keys.map (·.key)
  | .transactRead requests => requests.map (·.key)
  | .transactWrite operations => operations.flatMap operationItems

def soleTable? : Call → Option String
  | .get r => some r.table
  | .put r => some r.table
  | .update r => some r.table
  | .delete r => some r.table
  | .query r => some r.table
  | .scan r => some r.table
  | .batchWrite _ | .batchRead _ | .transactRead _ | .transactWrite _ => none

/-- Whether a call can be sent: the table that it is for has a name that is not blank, and
all values that it carries are known. -/
def isSendable (call : Call) : Bool :=
  (soleTable? call).all (fun table => !table.toList.all Text.isBlank)
    && (carriedItems call).all Item.isKnown

def request? (call : Call) : Option Request :=
  if isSendable call then some ⟨target call, Form.object (bodyMembers call)⟩ else none

end SingleTable.Wire
