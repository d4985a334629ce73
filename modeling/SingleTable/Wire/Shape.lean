import SingleTable.Decimal.Numeral
import SingleTable.Form.Reading
import SingleTable.Store.Call
import SingleTable.Wire.Base64

/-!
# Shapes of replies

Every member that the service can put into a reply has a shape.  A reply is understood as a
whole or not at all: `Shape.admits` looks at all members of known names, also at those
whose content is not used further, such as reports on what a call consumed.  Members of
other names are passed over, and a member that is null means the same as a member that is
not there.
-/

namespace SingleTable.Wire

/-! ## Numbers -/

/-- A real number.  The text of one that is not finite is a number too. -/
def real : Document → Form.Reading Float
  | .string s =>
    match Decimal.RealNumeral.read? s with
    | some numeral =>
      if numeral.toFloat.isFinite then .error "a number is expected" else .ok numeral.toFloat
    | none => .error "a number is expected"
  | d => Form.real d

/-- A whole number of 32 bits, which may be written with a point. -/
def whole : Document → Form.Reading Int
  | .integer n =>
    if Int32.minValue.toInt ≤ n ∧ n ≤ Int32.maxValue.toInt then .ok n
    else .error "a whole number is expected"
  | .real x =>
    if x.toInt32.toFloat == x then .ok x.toInt32.toInt
    else .error "a whole number is expected"
  | _ => .error "a whole number is expected"

/-! ## Shapes -/

/-- The shape of a part of a reply. -/
inductive Shape where
  | text
  | flag
  | real
  | whole
  /-- An attribute value. -/
  | value
  | list (element : Shape)
  /-- An object whose members have any names and one shape. -/
  | named (element : Shape)
  /-- An object whose members have the shapes of their names. -/
  | record (members : List (String × Shape))

namespace Shape

mutual

def admits : Shape → Document → Bool
  | text, d => (Form.text d).isOk
  | flag, d => (Form.flag d).isOk
  | real, d => (Wire.real d).isOk
  | whole, d => (Wire.whole d).isOk
  | value, d => (Form.readValue base64 d).isOk
  | list element, d => (Form.elements d).toOption.any fun ds => ds.all fun d => admits element d
  | named element, d =>
    (Form.members d).toOption.any fun ms => ms.all fun (_, d) => admits element d
  | record members, d => (Form.members d).isOk && admitsMembers members d

/-- Whether the members of an object, as far as they are there, have the shapes of their
names. -/
def admitsMembers : List (String × Shape) → Document → Bool
  | [], _ => true
  | (name, shape) :: rest, d =>
    (Form.member? d name).all (fun member => admits shape member) && admitsMembers rest d

end

/-! ## Parts -/

def item : Shape := .named .value

def capacity : Shape :=
  .record [("CapacityUnits", .real), ("ReadCapacityUnits", .real), ("WriteCapacityUnits", .real)]

def vectorTraffic : Shape :=
  .record [("VectorSearchRequestBytes", .real), ("VectorWriteRequestBytes", .real)]

def consumed : Shape :=
  .record [("TableName", .text), ("CapacityUnits", .real), ("ReadCapacityUnits", .real),
    ("WriteCapacityUnits", .real), ("Table", capacity),
    ("LocalSecondaryIndexes", .named capacity), ("GlobalSecondaryIndexes", .named capacity),
    ("VectorIndexes", .named vectorTraffic)]

def collection : Shape :=
  .record [("ItemCollectionKey", item), ("SizeEstimateRangeGB", .list .real)]

def batchWrite : Shape :=
  .record [("PutRequest", .record [("Item", item)]), ("DeleteRequest", .record [("Key", item)])]

def batchKeys : Shape :=
  .record [("Keys", .list item), ("AttributesToGet", .list .text), ("ConsistentRead", .flag),
    ("ProjectionExpression", .text), ("ExpressionAttributeNames", .named .text)]

def cancellation : Shape := .record [("Item", item), ("Code", .text), ("Message", .text)]

def throttling : Shape := .record [("reason", .text), ("resource", .text)]

/-! ## Replies -/

def answer : Call → Shape
  | .get _ => .record [("Item", item), ("ConsumedCapacity", consumed)]
  | .put _ | .update _ | .delete _ =>
    .record [("Attributes", item), ("ConsumedCapacity", consumed),
      ("ItemCollectionMetrics", collection)]
  | .query _ | .scan _ =>
    .record [("Items", .list item), ("Count", .whole), ("ScannedCount", .whole),
      ("LastEvaluatedKey", item), ("ConsumedCapacity", consumed)]
  | .batchWrite _ =>
    .record [("UnprocessedItems", .named (.list batchWrite)),
      ("ItemCollectionMetrics", .named (.list collection)), ("ConsumedCapacity", .list consumed)]
  | .batchRead _ =>
    .record [("Responses", .named (.list item)), ("UnprocessedKeys", .named batchKeys),
      ("ConsumedCapacity", .list consumed)]
  | .transactRead _ =>
    .record [("Responses", .list (.record [("Item", item)])),
      ("ConsumedCapacity", .list consumed)]
  | .transactWrite _ =>
    .record [("ConsumedCapacity", .list consumed),
      ("ItemCollectionMetrics", .named (.list collection))]

def exceptionDetails : String → List (String × Shape)
  | "ConditionalCheckFailedException" => [("Item", item)]
  | "ProvisionedThroughputExceededException" | "RequestLimitExceeded" =>
    [("ThrottlingReasons", .list throttling)]
  | "ThrottlingException" => [("throttlingReasons", .list throttling)]
  | "TransactionCanceledException" => [("CancellationReasons", .list cancellation)]
  | _ => []

/-- The exceptions whose message is in the member `Message`; it is in `message` otherwise. -/
def capitalised : List String :=
  ["IdempotentParameterMismatchException", "InvalidEndpointException",
    "TransactionCanceledException", "TransactionInProgressException"]

def messageMember (name : String) : String :=
  if capitalised.contains name then "Message" else "message"

def exception (name : String) : Shape :=
  .record ((messageMember name, .text) :: exceptionDetails name)

end Shape

end SingleTable.Wire
