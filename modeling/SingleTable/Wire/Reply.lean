import SingleTable.Store.Dialogue
import SingleTable.Wire.Request
import SingleTable.Wire.Shape

/-!
# Replies of the service

A reply has a status and a body.  With a status of success the body holds the answer to the
call; with any other it names the exception that was raised.  An exception that the call is
not known to raise is reported by its name alone.  A body that lacks its shape is not
understood, and neither is a call that makes no request.
-/

namespace SingleTable.Wire

/-- A reply of the service. -/
structure Reply where
  status : Nat := 200
  body : Document

def notUnderstood : Error := .service (.unknown none)

/-! ## Exceptions -/

/-- The name of an exception, without the namespace before `#` and all from the first `:`
on. -/
def exceptionName (code : String) : String :=
  let name := code.toList.takeWhile (· ≠ ':')
  match name.dropWhile (· ≠ '#') with
  | [] => String.ofList name
  | _ :: rest => String.ofList rest

/-- The exceptions that every call can raise. -/
def commonExceptions : List String :=
  ["InternalServerError", "InvalidEndpointException", "ProvisionedThroughputExceededException",
    "RequestLimitExceeded", "ResourceNotFoundException", "ThrottlingException"]

def writeExceptions : List String :=
  ["ConditionalCheckFailedException", "ItemCollectionSizeLimitExceededException",
    "ReplicatedWriteConflictException", "TransactionConflictException"]

/-- The exceptions that a call can raise besides the common ones. -/
def ownExceptions : Call → List String
  | .get _ | .query _ | .scan _ | .batchRead _ => []
  | .put _ | .update _ | .delete _ => writeExceptions
  | .batchWrite _ =>
    ["ItemCollectionSizeLimitExceededException", "ReplicatedWriteConflictException"]
  | .transactRead _ => ["TransactionCanceledException"]
  | .transactWrite _ =>
    ["IdempotentParameterMismatchException", "TransactionCanceledException",
      "TransactionInProgressException"]

def textMember? (d : Document) (members : List String) : Option String :=
  members.findSome? fun name => (d.member? name).bind (·.string?)

def exception? (body : Document) : Option String :=
  (textMember? body ["code", "__type"]).map exceptionName

/-- The message of an exception: the member of the exception itself, or another one for want
of it. -/
def message? (name : String) (body : Document) : Option String :=
  textMember? body [Shape.messageMember name, "message", "errorMessage", "Message"]

def fault (call : Call) (body : Document) : ServiceFault :=
  match exception? body with
  | none => .unknown none
  | some name =>
    if (commonExceptions ++ ownExceptions call).contains name then
      if (Shape.exception name).admits body then .known name (message? name body)
      else .unknown none
    else .unknown (some name)

/-! ## Answers -/

def listMember {α : Type} (d : Document) (name : String) (read : Document → Form.Reading α) :
    Form.Reading (List α) :=
  Form.fieldD d name (Form.list read) []

def tableMember {α : Type} (d : Document) (name : String)
    (read : Document → Form.Reading (List α)) : Form.Reading (List (String × α)) := do
  let groups ← Form.fieldD d name (Form.nameMap read) ∅
  return groups.entries.flatMap fun (table, group) => group.map fun thing => (table, thing)

/-- A page.  A count below zero is zero. -/
def page (body : Document) : Form.Reading Page := do
  let scanned ← Form.fieldD body "ScannedCount" whole 0
  let consumed := (Form.member? body "ConsumedCapacity").getD .null
  return {
    items := ← listMember body "Items" item
    next := ← Form.field? body "LastEvaluatedKey" item
    scanned := .ofNat scanned.toNat
    capacity := ← Form.field? consumed "CapacityUnits" real }

def unprocessedWrite (table : String) (d : Document) : Form.Reading (Option BatchWrite) := do
  let item? ← (Form.member? d "PutRequest").mapM (Form.fieldD · "Item" item ∅)
  let key? ← (Form.member? d "DeleteRequest").mapM (Form.fieldD · "Key" item ∅)
  return (item?.map (BatchWrite.put table)).or (key?.map (BatchWrite.delete table))

def reason (d : Document) : Form.Reading CancellationReason := do
  return ⟨← Form.field? d "Code" Form.text, ← Form.field? d "Message" Form.text⟩

def answerOf (body : Document) : (call : Call) → Form.Reading call.Answer
  | .get _ => Form.field? body "Item" item
  | .put _ => .ok ()
  | .update _ => Form.field? body "Attributes" item
  | .delete _ => .ok ()
  | .query _ => page body
  | .scan _ => page body
  | .batchWrite _ => do
    let left ← tableMember body "UnprocessedItems" Form.elements
    let requests ← left.mapM fun (table, d) => unprocessedWrite table d
    return requests.filterMap id
  | .batchRead _ => do
    let items ← tableMember body "Responses" (Form.list item)
    let keys ← tableMember body "UnprocessedKeys" (listMember · "Keys" item)
    return ⟨items.map (·.2), keys.map fun (table, key) => ⟨table, key⟩⟩
  | .transactRead _ => listMember body "Responses" (Form.field? · "Item" item)
  | .transactWrite _ => .ok .committed

def understood {α : Type} (shape : Shape) (read : Document → Form.Reading α)
    (body : Document) : Except Error α :=
  if shape.admits body then
    match read body with
    | .ok a => .ok a
    | .error _ => .error notUnderstood
  else .error notUnderstood

def cancelled (body : Document) : Form.Reading TransactionOutcome := do
  return .cancelled (← listMember body "CancellationReasons" reason)

/-- The answer that a reply holds.  A cancelled write transaction is an answer and not a
failure. -/
def Reply.answer (reply : Reply) (call : Call) : Except Error call.Answer :=
  if 200 ≤ reply.status ∧ reply.status < 300 then
    understood (Shape.answer call) (answerOf · call) reply.body
  else
    match call with
    | .transactWrite operations =>
      match exception? reply.body with
      | some "TransactionCanceledException" =>
        understood (.exception "TransactionCanceledException") cancelled reply.body
      | _ => .error (.service (fault (.transactWrite operations) reply.body))
    | call => .error (.service (fault call reply.body))

/-- A service that gives some replies in turn, and empty bodies after them. -/
def replies : Store (List Reply)
  | call, pending =>
    match request? call, pending with
    | none, _ => (.error notUnderstood, pending)
    | some _, [] => (Reply.answer { body := .object [] } call, [])
    | some _, reply :: rest => (reply.answer call, rest)

end SingleTable.Wire
