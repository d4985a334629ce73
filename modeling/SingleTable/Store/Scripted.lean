import SingleTable.Document.Writer
import SingleTable.Form.Value
import SingleTable.Store.Dialogue

/-!
# A scripted store

A store in memory that follows a script, for trying out operations without the service.  It
keeps items by their identifiers and looks at the two conditions that guard keys, but at no
other; pages of queries and scans, cancellations, failures and what batches leave unprocessed
come from the script, each from a queue.
-/

namespace SingleTable

inductive ScriptedReply where
  /-- The call is answered as usual. -/
  | usual
  /-- The call fails. -/
  | failure (error : Error)
  /-- The call is answered by nothing, if its answer can be nothing. -/
  | nothing

inductive BatchFault where
  /-- The item is left unprocessed. -/
  | unprocessed
  /-- The whole call fails. -/
  | failure
  deriving DecidableEq

/-- The queues of a script. -/
structure Script where
  /-- Pages of queries and scans. -/
  pages : List (Except Error Page) := []
  /-- Pages of scans of a segment, by the number of the segment. -/
  segments : NameMap (List (Except Error Page)) := ∅
  /-- Outcomes of write transactions. -/
  outcomes : List TransactionOutcome := []
  /-- What happens to calls, by the name of the call. -/
  replies : NameMap (List ScriptedReply) := ∅
  /-- What happens to items of batches, by the identifier of the item. -/
  faults : NameMap (List BatchFault) := ∅

namespace Script

def appendQueues {α : Type} (queues added : NameMap (List α)) : NameMap (List α) :=
  added.entries.foldl
    (fun queues (name, queue) => queues.insert name ((queues.get? name).getD [] ++ queue))
    queues

def append (script added : Script) : Script :=
  { pages := script.pages ++ added.pages
    segments := appendQueues script.segments added.segments
    outcomes := script.outcomes ++ added.outcomes
    replies := appendQueues script.replies added.replies
    faults := appendQueues script.faults added.faults }

/-- The number of pages in the queues. -/
def pageCount (script : Script) : Nat :=
  script.segments.entries.foldl (fun n segment => n + segment.2.length) script.pages.length

def takeFirst {α : Type} (queues : NameMap (List α)) (name : String) :
    Option α × NameMap (List α) :=
  match queues.get? name with
  | some (first :: rest) => (some first, queues.insert name rest)
  | _ => (none, queues)

end Script

/-- The state of a scripted store. -/
structure Scripted where
  /-- The key attributes of tables, by table name. -/
  keyAttributes : NameMap (List String) := ∅
  /-- The items with their tables, by identifier. -/
  rows : NameMap (String × Item) := ∅
  script : Script := {}

namespace Scripted

/-! ## Items -/

def keyText : Option Value → String
  | none => ""
  | some (.string text) => text
  | some value => (Form.ofValue value).write

def identifier (store : Scripted) (table : String) (item : Item) : String :=
  let values := ((store.keyAttributes.get? table).getD []).map fun attr => keyText (item.get? attr)
  table ++ "/" ++ "|".intercalate values

def row? (store : Scripted) (table : String) (key : Item) : Option Item :=
  (store.rows.get? (store.identifier table key)).map (·.2)

def place (store : Scripted) (table : String) (key item : Item) : Scripted :=
  { store with rows := store.rows.insert (store.identifier table key) (table, item) }

def insert (store : Scripted) (table : String) (item : Item) : Scripted :=
  store.place table item item

def erase (store : Scripted) (table : String) (key : Item) : Scripted :=
  { store with rows := store.rows.erase (store.identifier table key) }

/-! ## Updates -/

def clauseKeyword? (word : String) : Option String :=
  if word = "SET" ∨ word = "ADD" ∨ word = "REMOVE" ∨ word = "DELETE" then some word else none

def clauseWords (keyword : String) : Option String → List String → List String
  | _, [] => []
  | current, word :: rest =>
    match clauseKeyword? word with
    | some next => clauseWords keyword (some next) rest
    | none =>
      if current = some keyword then word :: clauseWords keyword current rest
      else clauseWords keyword current rest

def clauseItems (keyword text : String) : List String :=
  (" ".intercalate (clauseWords keyword none (text.splitOn " "))).splitOn ", "

/-- Assign what an item of a `SET` clause assigns, if both its sides are placeholders. -/
def applySet (bindings : Bindings) (item : Item) (assignment : String) : Item :=
  match assignment.splitOn " = " with
  | [left, right] =>
    match bindings.names.get? left, bindings.values.get? right with
    | some name, some value => item.insert name value
    | _, _ => item
  | _ => item

/-- Remove what an item of a `REMOVE` clause removes, if it is a placeholder. -/
def applyRemove (bindings : Bindings) (item : Item) (reference : String) : Item :=
  match bindings.names.get? reference with
  | some name => item.erase name
  | none => item

/-- The item that an update leaves.  Only whole attributes are set and removed. -/
def updated (store : Scripted) (request : UpdateRequest) : Item :=
  let start := (store.row? request.table request.key).getD request.key
  let assigned :=
    (clauseItems "SET" request.update).foldl (applySet request.bindings) start
  (clauseItems "REMOVE" request.update).foldl (applyRemove request.bindings) assigned

/-! ## Conditions -/

def asks (condition : Option String) (test : String) : Bool :=
  match condition with
  | none => false
  | some text => 1 < (text.splitOn test).length

def refusesPut (store : Scripted) (request : PutRequest) : Bool :=
  asks request.condition "attribute_not_exists(#CE_"
    && (store.row? request.table request.item).isSome

def refusesUpdate (store : Scripted) (request : UpdateRequest) : Bool :=
  asks request.condition "attribute_exists(#CE_"
    && (store.row? request.table request.key).isNone

def refusal : String := "The conditional request failed"

def conditionFailed : Error :=
  .service (.known "ConditionalCheckFailedException" (some refusal))

/-- Whether the condition of an operation of a transaction fails. -/
def refuses (store : Scripted) : WriteOperation → Bool
  | .put request => store.refusesPut request
  | .update request => store.refusesUpdate request
  | .delete _ => false

def apply (store : Scripted) : WriteOperation → Scripted
  | .put request => store.insert request.table request.item
  | .update request => store.place request.table request.key (store.updated request)
  | .delete request => store.erase request.table request.key

def applyAll (store : Scripted) (operations : List WriteOperation) : Scripted :=
  operations.foldl apply store

/-- The outcome of a transaction by its conditions, all of which are looked at first. -/
def transact (store : Scripted) (operations : List WriteOperation) :
    TransactionOutcome × Scripted :=
  if operations.any store.refuses then
    (.cancelled (operations.map fun operation =>
      if store.refuses operation then ⟨some "ConditionalCheckFailed", some refusal⟩
      else ⟨some "None", none⟩), store)
  else (.committed, store.applyAll operations)

/-! ## Pages -/

def nextPage (store : Scripted) : Except Error Page × Scripted :=
  match store.script.pages with
  | page :: rest => (page, { store with script := { store.script with pages := rest } })
  | [] => (.ok {}, store)

/-- Take the next page of a scan; a segment that the script knows has a queue of its own. -/
def nextScanPage (store : Scripted) (segment : Option Int) : Except Error Page × Scripted :=
  match segment with
  | none => store.nextPage
  | some number =>
    if store.script.segments.contains number.repr then
      let (page, segments) := Script.takeFirst store.script.segments number.repr
      (page.getD (.ok {}), { store with script := { store.script with segments } })
    else store.nextPage

/-! ## Batches -/

def takeFaults : List String → NameMap (List BatchFault) →
    List (Option BatchFault) × NameMap (List BatchFault)
  | [], faults => ([], faults)
  | name :: rest, faults =>
    let (fault, faults) := Script.takeFirst faults name
    let (others, faults) := takeFaults rest faults
    (fault :: others, faults)

/-- The failure of a batch call because of an item. -/
def batchFailure (name : String) : Error :=
  .service (.known "ProvisionedThroughputExceededException" (some name))

/-- The faults of the items of a batch call, in order, or the failure of the call.  The last
item that makes it fail is named. -/
def batchFaults (store : Scripted) (names : List String) :
    Except Error (List (Option BatchFault)) × Scripted :=
  let (faults, queues) := takeFaults names store.script.faults
  let store := { store with script := { store.script with faults := queues } }
  let failing := (names.zip faults).filter (·.2 = some .failure)
  match failing.getLast? with
  | some (name, _) => (.error (batchFailure name), store)
  | none => (.ok faults, store)

def applyBatch (store : Scripted) : BatchWrite → Scripted
  | .put table item => store.insert table item
  | .delete table key => store.erase table key

def batchIdentifier (store : Scripted) : BatchWrite → String
  | .put table item => store.identifier table item
  | .delete table key => store.identifier table key

/-- Write a batch except for what the script leaves unprocessed. -/
def batchWrite (store : Scripted) (requests : List BatchWrite) :
    Except Error (List BatchWrite) × Scripted :=
  match store.batchFaults (requests.map store.batchIdentifier) with
  | (.error error, store) => (.error error, store)
  | (.ok faults, store) =>
    let marked := requests.zip faults
    let written := (marked.filter (·.2.isNone)).map (·.1)
    (.ok ((marked.filter (·.2.isSome)).map (·.1)), written.foldl applyBatch store)

/-- Read a batch except for what the script leaves unprocessed. -/
def batchRead (store : Scripted) (keys : List KeyRef) :
    Except Error BatchReadAnswer × Scripted :=
  match store.batchFaults (keys.map fun ref => store.identifier ref.table ref.key) with
  | (.error error, store) => (.error error, store)
  | (.ok faults, store) =>
    let marked := keys.zip faults
    let read := (marked.filter (·.2.isNone)).map (·.1)
    (.ok ⟨read.filterMap fun ref => store.row? ref.table ref.key,
      (marked.filter (·.2.isSome)).map (·.1)⟩, store)

/-! ## Calls -/

/-- The answer to a call that the script says nothing about. -/
def answerUsual : Store Scripted
  | .get request, store => (.ok (store.row? request.table request.key), store)
  | .put request, store =>
    if store.refusesPut request then (.error conditionFailed, store)
    else (.ok (), store.insert request.table request.item)
  | .update request, store =>
    if store.refusesUpdate request then (.error conditionFailed, store)
    else
      let item := store.updated request
      (.ok (some item), store.place request.table request.key item)
  | .delete request, store => (.ok (), store.erase request.table request.key)
  | .query _, store => store.nextPage
  | .scan request, store => store.nextScanPage request.segment
  | .batchWrite requests, store => store.batchWrite requests
  | .batchRead keys, store => store.batchRead keys
  | .transactRead requests, store =>
    (.ok (requests.map fun request => store.row? request.table request.key), store)
  | .transactWrite operations, store =>
    match store.script.outcomes with
    | [] =>
      let (outcome, store) := store.transact operations
      (.ok outcome, store)
    | outcome :: rest =>
      let store := { store with script := { store.script with outcomes := rest } }
      match outcome with
      | .committed => (.ok .committed, store.applyAll operations)
      | .cancelled reasons => (.ok (.cancelled reasons), store)

def answerNothing : Store Scripted
  | .get _, store => (.ok none, store)
  | .update _, store => (.ok none, store)
  | .transactRead _, store => (.ok [], store)
  | call, store => answerUsual call store

def answer : Store Scripted := fun call store =>
  let (reply, replies) := Script.takeFirst store.script.replies call.name
  let store := { store with script := { store.script with replies } }
  match reply with
  | some (.failure error) => (.error error, store)
  | some .nothing => answerNothing call store
  | some .usual | none => answerUsual call store

end Scripted

end SingleTable
