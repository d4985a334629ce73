import Mathlib.Data.Multiset.Filter
import SingleTable.Proofs.Wire.Unprocessed

/-!
# Batches lose nothing

Whatever tables and kinds a batch mixes, each request is sent once under its own table, in the order in
which the requests for that table were given, and whatever part of the groups comes back unprocessed
is restored to the requests that it was made of, with their tables.  So what an attempt of a batch
leaves over is a part of what it sent, as the account of a batch supposes.  A service can answer with
any part of what it was sent: the reply that holds it in the form in which it was sent has the shape
of an answer and is read as that part (`leavesWrites_ofWrites`, `leavesKeys_ofKeys`).
-/

namespace SingleTable.Wire

/-! ## Replies that leave some over -/

/-- A successful reply to a batch write that leaves some of the groups unprocessed: for each table as
many of a request as were sent, or fewer. -/
structure Reply.LeavesWrites (reply : Reply) (requests : List BatchWrite)
    (left : NameMap (List WriteRequest)) : Prop where
  succeeded : 200 ≤ reply.status ∧ reply.status < 300
  hasShape : (Shape.answer (.batchWrite requests)).admits reply.body = true
  reads : unprocessedItems reply.body = .ok left
  within : ∀ table, (groupOf left table : Multiset WriteRequest) ≤ groupOf (sentWrites requests) table

structure Reply.LeavesKeys (reply : Reply) (refs : List KeyRef) (found left : NameMap (List Item)) :
    Prop where
  succeeded : 200 ≤ reply.status ∧ reply.status < 300
  hasShape : (Shape.answer (.batchRead refs)).admits reply.body = true
  holds : responses reply.body = .ok found
  reads : unprocessedKeys reply.body = .ok left
  within : ∀ table, (groupOf left table : Multiset Item) ≤ groupOf (sentKeys refs) table

def Reply.ofWrites (left : NameMap (List WriteRequest)) : Reply where
  body := Form.object
    [("UnprocessedItems", Form.ofNameMap (Form.array WriteRequest.document) left)]

def Reply.ofKeys (found left : NameMap (List Item)) : Reply where
  body := Form.object
    [("Responses", Form.ofNameMap (Form.array ofItem) found),
      ("UnprocessedKeys", Form.ofNameMap
        (fun keys => Form.object [("Keys", Form.array ofItem keys)]) left)]

/-! ## Shapes of what was sent -/

theorem admits_named {α : Type} {element : Shape} {write : α → Document} {m : NameMap α}
    (admits : ∀ entry ∈ m.entries, element.admits (write entry.2) = true) :
    (Shape.named element).admits (Form.ofNameMap write m) = true := by
  change ((m.entries.map fun entry => (entry.1, write entry.2)).all fun member =>
    element.admits member.2) = true
  rw [List.all_map]
  exact List.all_eq_true.2 admits

theorem admits_list {α : Type} {element : Shape} {write : α → Document} {things : List α}
    (admits : ∀ thing ∈ things, element.admits (write thing) = true) :
    (Shape.list element).admits (Form.array write things) = true := by
  change ((things.map write).all fun d => element.admits d) = true
  rw [List.all_map]
  exact List.all_eq_true.2 admits

theorem admits_item {content : Item} (readable : content.IsReadable) :
    Shape.item.admits (ofItem content) = true := by
  refine admits_named fun entry isEntry => ?_
  obtain ⟨known, ordered⟩ := Value.each_of_fields readable.1 readable.2 entry isEntry
  change (Form.readValue base64 _).isOk = true
  rw [readValue_base64 known ordered]
  rfl

theorem admits_writeRequest {request : WriteRequest} (readable : request.IsReadable) :
    Shape.batchWrite.admits request.document = true := by
  have put_admits : (request.put?.map fun content => Form.object [("Item", ofItem content)]).all
      (Shape.admits (.record [("Item", Shape.item)])) = true := by
    cases put?_eq : request.put? with
    | none => rfl
    | some content =>
      change (true && (Shape.item.admits (ofItem content) && true)) = true
      rw [admits_item (readable.1 content put?_eq)]
      rfl
  have delete_admits : (request.delete?.map fun content => Form.object [("Key", ofItem content)]).all
      (Shape.admits (.record [("Key", Shape.item)])) = true := by
    cases delete?_eq : request.delete? with
    | none => rfl
    | some content =>
      change (true && (Shape.item.admits (ofItem content) && true)) = true
      rw [admits_item (readable.2 content delete?_eq)]
      rfl
  change (true && ((Form.member? request.document "PutRequest").all _ &&
    ((Form.member? request.document "DeleteRequest").all _ && true))) = true
  rw [WriteRequest.member?_put, WriteRequest.member?_delete, put_admits, delete_admits]
  rfl

theorem leavesWrites_ofWrites {requests : List BatchWrite} {left : NameMap (List WriteRequest)}
    (readable : ∀ item ∈ carriedItems (.batchWrite requests), item.IsReadable)
    (within : ∀ table, (groupOf left table : Multiset WriteRequest) ≤
      groupOf (sentWrites requests) table) :
    (Reply.ofWrites left).LeavesWrites requests left := by
  have each : ∀ entry ∈ left.entries, ∀ request ∈ entry.2, request.IsReadable := by
    intro entry isEntry request isRequest
    have isSent := mem_of_within within isEntry isRequest
    rw [groupOf_sentWrites] at isSent
    obtain ⟨original, isOriginal, rfl⟩ := List.mem_map.1 isSent
    exact WriteRequest.isReadable_of (List.mem_of_mem_filter isOriginal) readable
  refine ⟨⟨le_refl 200, (by decide : 200 < 300)⟩, ?_, ?_, within⟩
  · have shape : (Shape.named (.list Shape.batchWrite)).admits
        (Form.ofNameMap (Form.array WriteRequest.document) left) = true :=
      admits_named fun entry isEntry =>
        admits_list fun request isRequest => admits_writeRequest (each entry isEntry request isRequest)
    change (true && ((Shape.named (.list Shape.batchWrite)).admits
      (Form.ofNameMap (Form.array WriteRequest.document) left) && (true && (true && true)))) = true
    rw [shape]
    rfl
  · exact Form.nameMap_ofNameMap fun entry isEntry =>
      Form.list_array fun request isRequest =>
        WriteRequest.read_document (each entry isEntry request isRequest)

theorem leavesKeys_ofKeys {refs : List KeyRef} {found left : NameMap (List Item)}
    (readable : ∀ item ∈ carriedItems (.batchRead refs), item.IsReadable)
    (readableFound : ∀ entry ∈ found.entries, ∀ item ∈ entry.2, item.IsReadable)
    (within : ∀ table, (groupOf left table : Multiset Item) ≤ groupOf (sentKeys refs) table) :
    (Reply.ofKeys found left).LeavesKeys refs found left := by
  have each : ∀ entry ∈ left.entries, ∀ key ∈ entry.2, key.IsReadable := by
    intro entry isEntry key isKey
    have isSent := mem_of_within within isEntry isKey
    rw [groupOf_sentKeys] at isSent
    obtain ⟨ref, isRef, rfl⟩ := List.mem_map.1 isSent
    exact readable _ (List.mem_map_of_mem (List.mem_of_mem_filter isRef))
  have responses_eq : Form.member? (Reply.ofKeys found left).body "Responses" =
      some (Form.ofNameMap (Form.array ofItem) found) :=
    Form.member?_object_of_mem (by simp) (by simp) nofun
  have unprocessed_eq : Form.member? (Reply.ofKeys found left).body "UnprocessedKeys" =
      some (Form.ofNameMap (fun keys => Form.object [("Keys", Form.array ofItem keys)]) left) :=
    Form.member?_object_of_mem (by simp) (by simp) nofun
  have consumed_eq : Form.member? (Reply.ofKeys found left).body "ConsumedCapacity" = none :=
    Form.member?_object_of_not_mem (by simp)
  refine ⟨⟨le_refl 200, (by decide : 200 < 300)⟩, ?_, ?_, ?_, within⟩
  · have shape : (Shape.named (.list Shape.item)).admits
        (Form.ofNameMap (Form.array ofItem) found) = true :=
      admits_named fun entry isEntry =>
        admits_list fun item isItem => admits_item (readableFound entry isEntry item isItem)
    have shapeKeys : (Shape.named Shape.batchKeys).admits (Form.ofNameMap
        (fun keys => Form.object [("Keys", Form.array ofItem keys)]) left) = true := by
      refine admits_named fun entry isEntry => ?_
      have shape : (Shape.list Shape.item).admits (Form.array ofItem entry.2) = true :=
        admits_list fun key isKey => admits_item (each entry isEntry key isKey)
      change (true && ((Shape.list Shape.item).admits (Form.array ofItem entry.2) &&
        (true && (true && (true && (true && true)))))) = true
      rw [shape]
      rfl
    change (true && ((Form.member? _ "Responses").all _ && ((Form.member? _ "UnprocessedKeys").all _ &&
      ((Form.member? _ "ConsumedCapacity").all _ && true)))) = true
    rw [responses_eq, unprocessed_eq, consumed_eq, Option.all_some, Option.all_some, shape, shapeKeys]
    rfl
  · rw [responses, Form.fieldD, responses_eq]
    exact Form.nameMap_ofNameMap fun entry isEntry =>
      Form.list_array fun item isItem => item_ofItem (readableFound entry isEntry item isItem)
  · rw [unprocessedKeys, Form.fieldD, unprocessed_eq]
    exact Form.nameMap_ofNameMap fun entry isEntry =>
      Form.list_array fun key isKey => item_ofItem (each entry isEntry key isKey)

/-! ## What comes back -/

theorem replies_of_answerOf {call : Call} {reply : Reply} {answer : call.Answer}
    (isSent : (request? call).isSome = true) (succeeded : 200 ≤ reply.status ∧ reply.status < 300)
    (hasShape : (Shape.answer call).admits reply.body = true)
    (answered : answerOf reply.body call = .ok answer) (rest : List Reply) :
    replies call (reply :: rest) = (.ok answer, rest) := by
  have understood_eq : reply.answer call = .ok answer := by
    rw [Reply.answer.eq_def, if_pos succeeded]
    simp only [understood, hasShape, answered, if_true]
  obtain ⟨request, request_eq⟩ := Option.isSome_iff_exists.1 isSent
  simp only [replies, request_eq, understood_eq]

theorem replies_of_unsent {call : Call} (unsent : request? call = none) (pending : List Reply) :
    replies call pending = (.error notUnderstood, pending) := by
  cases pending <;> simp only [replies, unsent]

/-- A call for several tables is sent if its values are known. -/
theorem request?_of_soleTable? {call : Call} (isForSeveral : soleTable? call = none) :
    request? call = if (carriedItems call).all Item.isKnown then
      some ⟨target call, Form.object (bodyMembers call)⟩ else none := by
  rw [request?, isSendable, isForSeveral]
  rfl

def restored (groups : NameMap (List WriteRequest)) : List BatchWrite :=
  (ungrouped groups).filterMap fun thing => thing.2.restore thing.1

def restoredKeys (groups : NameMap (List Item)) : List KeyRef :=
  (ungrouped groups).map fun thing => ⟨thing.1, thing.2⟩

section Restored

variable {requests : List BatchWrite} {refs : List KeyRef}

theorem filterMap_restore (requests : List BatchWrite) :
    (requests.map fun request => (request.table, WriteRequest.of request)).filterMap
      (fun thing => thing.2.restore thing.1) = requests := by
  rw [List.filterMap_map]
  exact (congrArg (List.filterMap · requests) (funext WriteRequest.restore_of)).trans List.filterMap_some

/-- Groups of what was sent hold requests that were sent. -/
theorem restored_le {left : NameMap (List WriteRequest)}
    (within : ∀ table, (groupOf left table : Multiset WriteRequest) ≤
      groupOf (sentWrites requests) table) : (restored left : Multiset BatchWrite) ≤ requests := by
  have part := Multiset.filterMap_le_filterMap
    (fun thing : String × WriteRequest => thing.2.restore thing.1) (ungrouped_le_of_within within)
  rwa [Multiset.filterMap_coe, Multiset.filterMap_coe, filterMap_restore] at part

/-- A request that stands for one of a batch is that one in the group of its table. -/
theorem map_filterMap_restore {left : List (String × WriteRequest)}
    (own : ∀ thing ∈ left, ∃ request : BatchWrite, (request.table, WriteRequest.of request) = thing) :
    (left.filterMap fun thing => thing.2.restore thing.1).map
      (fun request => (request.table, WriteRequest.of request)) = left := by
  induction left with
  | nil => rfl
  | cons thing left inductionHypothesis =>
    obtain ⟨⟨request, rfl⟩, ownOthers⟩ := List.forall_mem_cons.1 own
    rw [List.filterMap_cons, WriteRequest.restore_of, List.map_cons, inductionHypothesis ownOthers]

/-- Nothing in groups of what was sent is passed over. -/
theorem map_restored {left : NameMap (List WriteRequest)}
    (within : ∀ table, (groupOf left table : Multiset WriteRequest) ≤
      groupOf (sentWrites requests) table) :
    (restored left).map (fun request => (request.table, .of request)) = ungrouped left := by
  refine map_filterMap_restore fun thing isLeft => ?_
  have isSent : thing ∈ requests.map fun request => (request.table, WriteRequest.of request) :=
    Multiset.mem_coe.1 (Multiset.mem_of_le (ungrouped_le_of_within within) isLeft)
  exact (List.mem_map.1 isSent).imp fun request found => found.2

theorem restoredKeys_le {left : NameMap (List Item)}
    (within : ∀ table, (groupOf left table : Multiset Item) ≤ groupOf (sentKeys refs) table) :
    (restoredKeys left : Multiset KeyRef) ≤ refs := by
  have part := Multiset.map_le_map (f := fun thing => KeyRef.mk thing.1 thing.2)
    (ungrouped_le_of_within within)
  rw [Multiset.map_coe, Multiset.map_coe, List.map_map] at part
  exact part.trans (le_of_eq (congrArg _ (List.map_id refs)))

theorem map_restoredKeys (left : NameMap (List Item)) :
    (restoredKeys left).map (fun ref => (ref.table, ref.key)) = ungrouped left := by
  rw [restoredKeys, List.map_map]
  exact List.map_id _

end Restored

section Orders

variable {order : List (String × List WriteRequest)} {orderKeys : List (String × List Item)}

/-- In whatever order groups are gone through, they hold the same requests. -/
theorem perm_restored {left : NameMap (List WriteRequest)} (same : order.Perm left.entries) :
    (order.flatMap fun (table, group) => group.filterMap (·.restore table)).Perm (restored left) := by
  simp only [restored, ungrouped, List.filterMap_flatMap, List.filterMap_map]
  exact same.flatMap_right _

theorem perm_restoredKeys {left : NameMap (List Item)} (same : orderKeys.Perm left.entries) :
    (orderKeys.flatMap fun (table, keys) => keys.map fun key => KeyRef.mk table key).Perm
      (restoredKeys left) := by
  simp only [restoredKeys, ungrouped, List.map_flatMap, List.map_map]
  exact same.flatMap_right _

end Orders

theorem map_snd_ungrouped {α : Type} (groups : NameMap (List α)) :
    (ungrouped groups).map (·.2) = groups.entries.flatMap (·.2) := by
  simp [ungrouped, List.map_flatMap, Function.comp_def]

/-! ## What holds of every batch -/

structure KeepsWrites (requests : List BatchWrite) : Prop where
  /-- The request holds the groups; a batch with a value that cannot be sent makes no request. -/
  sent : request? (.batchWrite requests) =
    if (carriedItems (.batchWrite requests)).all Item.isKnown then
      some ⟨"BatchWriteItem", Form.object [("RequestItems",
        Form.ofNameMap (Form.array WriteRequest.document) (sentWrites requests))]⟩
    else none
  /-- A batch that makes no request fails. -/
  refused : ∀ pending, (request? (.batchWrite requests)).isNone →
    replies (.batchWrite requests) pending = (.error notUnderstood, pending)
  /-- There are groups for the tables of the requests and for no others. -/
  tables : ∀ table,
    (sentWrites requests).contains table = requests.any fun request => request.table = table
  /-- The group of a table holds the requests for it in their order. -/
  ordered : ∀ table, groupOf (sentWrites requests) table =
    (requests.filter fun request => request.table = table).map .of
  /-- Each request is in the groups once, under its own table. -/
  once : (ungrouped (sentWrites requests)).Perm (requests.map fun request => (request.table, .of request))
  /-- What is left unprocessed is returned: every request of the groups, with its table, and no other,
  in whatever order the groups are gone through. -/
  returned : ∀ reply rest left, reply.LeavesWrites requests left →
    (request? (.batchWrite requests)).isSome →
    ∃ unprocessed : List BatchWrite,
      replies (.batchWrite requests) (reply :: rest) = (.ok unprocessed, rest) ∧
      unprocessed.map (fun request => (request.table, .of request)) = ungrouped left ∧
      (unprocessed : Multiset BatchWrite) ≤ requests ∧
      ∀ order : List (String × List WriteRequest), order.Perm left.entries →
        (order.flatMap fun (table, group) => group.filterMap (·.restore table)).Perm unprocessed
  /-- Any part of the groups can be left unprocessed. -/
  answerable : ∀ left, (∀ item ∈ carriedItems (.batchWrite requests), item.IsReadable) →
    (∀ table, (groupOf left table : Multiset WriteRequest) ≤ groupOf (sentWrites requests) table) →
    (Reply.ofWrites left).LeavesWrites requests left

structure KeepsReads (refs : List KeyRef) : Prop where
  /-- The request holds the groups; a batch with a value that cannot be sent makes no request. -/
  sent : request? (.batchRead refs) =
    if (carriedItems (.batchRead refs)).all Item.isKnown then
      some ⟨"BatchGetItem", Form.object [("RequestItems",
        Form.ofNameMap (fun keys => Form.object [("Keys", Form.array ofItem keys)]) (sentKeys refs))]⟩
    else none
  /-- A batch that makes no request fails. -/
  refused : ∀ pending, (request? (.batchRead refs)).isNone →
    replies (.batchRead refs) pending = (.error notUnderstood, pending)
  /-- There are groups for the tables of the keys and for no others. -/
  tables : ∀ table, (sentKeys refs).contains table = refs.any fun ref => ref.table = table
  /-- The group of a table holds the keys of that table in their order. -/
  ordered : ∀ table, groupOf (sentKeys refs) table =
    (refs.filter fun ref => ref.table = table).map (·.key)
  /-- Each key is in the groups once, under its own table. -/
  once : (ungrouped (sentKeys refs)).Perm (refs.map fun ref => (ref.table, ref.key))
  /-- All items of all tables are returned, and what is left unprocessed: every key of the groups, with
  its table, and no other, in whatever order the groups are gone through. -/
  returned : ∀ reply rest found left, reply.LeavesKeys refs found left →
    (request? (.batchRead refs)).isSome →
    ∃ answer : BatchReadAnswer,
      replies (.batchRead refs) (reply :: rest) = (.ok answer, rest) ∧
      answer.items = found.entries.flatMap (·.2) ∧
      answer.unprocessed.map (fun ref => (ref.table, ref.key)) = ungrouped left ∧
      (answer.unprocessed : Multiset KeyRef) ≤ refs ∧
      (∀ order : List (String × List Item), order.Perm found.entries →
        (order.flatMap (·.2)).Perm answer.items) ∧
      ∀ order : List (String × List Item), order.Perm left.entries →
        (order.flatMap fun (table, keys) => keys.map fun key => KeyRef.mk table key).Perm
          answer.unprocessed
  /-- Any items can be held, and any part of the groups can be left unprocessed. -/
  answerable : ∀ found left, (∀ item ∈ carriedItems (.batchRead refs), item.IsReadable) →
    (∀ entry ∈ found.entries, ∀ item ∈ entry.2, item.IsReadable) →
    (∀ table, (groupOf left table : Multiset Item) ≤ groupOf (sentKeys refs) table) →
    (Reply.ofKeys found left).LeavesKeys refs found left

theorem keepsWrites (requests : List BatchWrite) : KeepsWrites requests where
  sent := by
    rw [request?_of_soleTable? rfl, bodyMembers_batchWrite]
    rfl
  refused pending unsent := replies_of_unsent (Option.isNone_iff_eq_none.1 unsent) pending
  tables table := by
    rw [sentWrites, contains_byTable, List.any_map]
    rfl
  ordered := groupOf_sentWrites requests
  once := ungrouped_byTable _
  returned reply rest left leaves isSent :=
    ⟨restored left, replies_of_answerOf isSent leaves.succeeded leaves.hasShape
      (answerOf_batchWrite leaves.reads requests) rest, map_restored leaves.within,
      restored_le leaves.within, fun _ => perm_restored⟩
  answerable _ := leavesWrites_ofWrites

theorem keepsReads (refs : List KeyRef) : KeepsReads refs where
  sent := by
    rw [request?_of_soleTable? rfl, bodyMembers_batchRead]
    rfl
  refused pending unsent := replies_of_unsent (Option.isNone_iff_eq_none.1 unsent) pending
  tables table := by
    rw [sentKeys, contains_byTable, List.any_map]
    rfl
  ordered := groupOf_sentKeys refs
  once := ungrouped_byTable _
  returned reply rest found left leaves isSent := by
    refine ⟨⟨found.entries.flatMap (·.2), restoredKeys left⟩, ?_, rfl, map_restoredKeys left,
      restoredKeys_le leaves.within, fun order same => same.flatMap_right _, fun _ => perm_restoredKeys⟩
    have answered := answerOf_batchRead leaves.holds leaves.reads refs
    rw [map_snd_ungrouped] at answered
    exact replies_of_answerOf isSent leaves.succeeded leaves.hasShape answered rest
  answerable _ _ := leavesKeys_ofKeys

/-- Whatever tables and kinds are mixed, a batch write sends each request once under its own table, in
the order of the requests for that table, and a batch read each key; the requests and keys that are
left unprocessed come back as they were, with their tables, and a batch read returns all items of all
tables. -/
theorem batches_lose_nothing (requests : List BatchWrite) (refs : List KeyRef) :
    KeepsWrites requests ∧ KeepsReads refs :=
  ⟨keepsWrites requests, keepsReads refs⟩

def ticket (number : String) : Item := Item.single "id" (.string number)

def ticketWrites : List BatchWrite :=
  [.put "east" (ticket "1"), .delete "west" (ticket "2"), .put "east" (ticket "1"),
    .delete "east" (ticket "1")]

def ticketsOver : Reply where
  body := Form.object [("UnprocessedItems", Form.object [
    ("west", .array [(WriteRequest.of (.delete "west" (ticket "2"))).document]),
    ("east", .array [Form.object [("DeleteRequest", .null),
      ("PutRequest", Form.object [("Item", ofItem (ticket "1"))])]])])]

def ticketsFound : Reply where
  body := Form.object [
    ("Responses", Form.object [("east", .array [ofItem (ticket "1")])]),
    ("UnprocessedKeys", Form.object [("west", Form.object [("Keys", .array [ofItem (ticket "2")])])])]

theorem leavesWrites_tickets : ticketsOver.LeavesWrites ticketWrites
    (sentWrites [.delete "west" (ticket "2"), .put "east" (ticket "1")]) where
  succeeded := by decide
  hasShape := by decide +kernel
  reads := by decide +kernel
  within := groupOf_byTable_le (Multiset.coe_le.2 (by decide +kernel))

theorem leavesKeys_tickets :
    ticketsFound.LeavesKeys [⟨"west", ticket "2"⟩, ⟨"east", ticket "1"⟩]
      (sentKeys [⟨"east", ticket "1"⟩]) (sentKeys [⟨"west", ticket "2"⟩]) where
  succeeded := by decide
  hasShape := by decide +kernel
  holds := by decide +kernel
  reads := by decide +kernel
  within := groupOf_byTable_le (Multiset.coe_le.2 (by decide +kernel))

theorem batches_lose_nothing_tickets :
    replies (.batchWrite ticketWrites) [ticketsOver] =
      (.ok [.put "east" (ticket "1"), .delete "west" (ticket "2")], []) ∧
    replies (.batchRead [⟨"west", ticket "2"⟩, ⟨"east", ticket "1"⟩]) [ticketsFound] =
      (.ok ⟨[ticket "1"], [⟨"west", ticket "2"⟩]⟩, []) := by
  obtain ⟨writes, reads⟩ :=
    batches_lose_nothing ticketWrites [⟨"west", ticket "2"⟩, ⟨"east", ticket "1"⟩]
  obtain ⟨unprocessed, answered, left_eq, -⟩ :=
    writes.returned ticketsOver [] _ leavesWrites_tickets (by decide +kernel)
  obtain ⟨⟨items, keys⟩, answeredKeys, items_eq, leftKeys_eq, -⟩ :=
    reads.returned ticketsFound [] _ _ leavesKeys_tickets (by decide +kernel)
  have unprocessed_eq : unprocessed = [.put "east" (ticket "1"), .delete "west" (ticket "2")] := by
    rw [← filterMap_restore unprocessed, left_eq]
    decide +kernel
  have keys_eq : keys = [⟨"west", ticket "2"⟩] := by
    have pairs_eq : keys.map (fun ref => (ref.table, ref.key)) = [("west", ticket "2")] :=
      leftKeys_eq.trans (by decide +kernel)
    simpa [Function.comp_def] using congrArg (List.map fun pair => KeyRef.mk pair.1 pair.2) pairs_eq
  rw [unprocessed_eq] at answered
  rw [show items = [ticket "1"] from items_eq.trans (by decide +kernel), keys_eq] at answeredKeys
  exact ⟨answered, answeredKeys⟩

end SingleTable.Wire
