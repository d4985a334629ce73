import SingleTable.Store.Scripted

/-!
# The form of scripts

A script lists what it adds to the queues of a scripted store.
-/

namespace SingleTable.Form

def storeError : Document → Reading Error
  | .object [("conditional", d)] => do
    return .service (.known "ConditionalCheckFailedException" (← message d))
  | .object [("throttled", d)] => do
    return .service (.known "ProvisionedThroughputExceededException" (← message d))
  | .object [("build", _)] => .ok .requestConstruction
  | _ => .error "a failure of the store is expected"
where
  /-- A message, or null for none. -/
  message : Document → Reading (Option String)
    | .null => .ok none
    | d => some <$> text d

def page (d : Document) : Reading (Except Error Page) := do
  match ← field? d "error" storeError with
  | some error => return .error error
  | none =>
    let items ← fieldD d "items" (list item) []
    return .ok {
      items
      next := ← field? d "next" item
      scanned := .ofNat (← fieldD d "scanned" natural items.length)
      capacity := ← field? d "capacity" real }

def outcome : Document → Reading TransactionOutcome
  | .string "committed" => .ok .committed
  | d => do
    let reasons ← list (fun r => do
      return (⟨← field? r "code" text, ← field? r "message" text⟩ : CancellationReason)) d
    return .cancelled reasons

def reply : Document → Reading ScriptedReply
  | .null => .ok .usual
  | .string "none" => .ok .nothing
  | d => .failure <$> storeError d

def batchFault : Document → Reading BatchFault
  | .string "unprocessed" => .ok .unprocessed
  | .string "error" => .ok .failure
  | _ => .error "a fault is expected"

def script (d : Document) : Reading Script := do
  return {
    pages := ← fieldD d "pages" (list page) []
    segments := ← fieldD d "segments" (nameMap (list page)) ∅
    outcomes := ← fieldD d "outcomes" (list outcome) []
    replies := ← fieldD d "errors" (nameMap (list reply)) ∅
    faults := ← fieldD d "faults" (nameMap (list batchFault)) ∅ }

end SingleTable.Form
