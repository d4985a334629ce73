import SingleTable.Proofs.Entity.Layout
import SingleTable.Proofs.Wire.Grouping
import SingleTable.Proofs.Wire.Values
import SingleTable.Wire.Reply

/-!
# What a batch sends and what it leaves over

A batch travels in groups, one for each table, and what the service leaves unprocessed comes back in
such groups.  In a group a request is something that is put or something that is deleted
(`WriteRequest`), and its table is told by the group alone.  The bodies of the calls are the forms of
these groups (`bodyMembers_batchWrite`, `bodyMembers_batchRead`), and the answers are what the groups
in a reply hold (`answerOf_batchWrite`, `answerOf_batchRead`).
-/

namespace SingleTable.Wire

/-! ## Write requests -/

/-- A request of a batch as it stands in the group of its table. -/
structure WriteRequest where
  /-- The item that is put. -/
  put? : Option Item := none
  /-- The key of the item that is deleted. -/
  delete? : Option Item := none
  deriving DecidableEq

namespace WriteRequest

def of : BatchWrite → WriteRequest
  | .put _ item => { put? := some item }
  | .delete _ key => { delete? := some key }

def restore (table : String) (request : WriteRequest) : Option BatchWrite :=
  (request.put?.map (.put table)).or (request.delete?.map (.delete table))

def document (request : WriteRequest) : Document :=
  Form.object
    (given "PutRequest" (fun item => Form.object [("Item", ofItem item)]) request.put?
      ++ given "DeleteRequest" (fun key => Form.object [("Key", ofItem key)]) request.delete?)

def read (d : Document) : Form.Reading WriteRequest := do
  return {
    put? := ← (Form.member? d "PutRequest").mapM (Form.fieldD · "Item" item ∅)
    delete? := ← (Form.member? d "DeleteRequest").mapM (Form.fieldD · "Key" item ∅) }

@[simp] theorem restore_of (request : BatchWrite) : (of request).restore request.table = some request := by
  cases request <;> rfl

theorem batchEntry_eq (request : BatchWrite) :
    batchEntry request = (request.table, (of request).document) := by
  cases request <;> rfl

theorem unprocessedWrite_eq (table : String) (d : Document) :
    unprocessedWrite table d = restore table <$> read d := by
  unfold unprocessedWrite read
  cases (Form.member? d "PutRequest").mapM (Form.fieldD · "Item" item ∅) with
  | error error => rfl
  | ok put? => cases (Form.member? d "DeleteRequest").mapM (Form.fieldD · "Key" item ∅) <;> rfl

end WriteRequest

/-! ## Forms of requests -/

namespace WriteRequest

/-- What is put and the key of what is deleted come back as they were. -/
def IsReadable (request : WriteRequest) : Prop :=
  (∀ item, request.put? = some item → item.IsReadable) ∧
    ∀ key, request.delete? = some key → key.IsReadable

theorem isReadable_of {requests : List BatchWrite} {request : BatchWrite} (isRequest : request ∈ requests)
    (readable : ∀ item ∈ carriedItems (.batchWrite requests), item.IsReadable) :
    (of request).IsReadable := by
  have isReadable := readable _ (List.mem_map_of_mem isRequest)
  cases request with
  | put table item => exact ⟨fun _ same => Option.some.inj same ▸ isReadable, nofun⟩
  | delete table key => exact ⟨nofun, fun _ same => Option.some.inj same ▸ isReadable⟩

theorem member?_put (request : WriteRequest) : Form.member? request.document "PutRequest" =
    request.put?.map fun content => Form.object [("Item", ofItem content)] := by
  rcases request with ⟨_ | put, _ | delete⟩
  case none.none | none.some => exact Form.member?_object_of_not_mem (by simp [given])
  case some.none | some.some => exact Form.member?_object_of_mem (by simp [given]) (by simp [given]) nofun

theorem member?_delete (request : WriteRequest) : Form.member? request.document "DeleteRequest" =
    request.delete?.map fun content => Form.object [("Key", ofItem content)] := by
  rcases request with ⟨_ | put, _ | delete⟩
  case none.none | some.none => exact Form.member?_object_of_not_mem (by simp [given])
  case none.some | some.some => exact Form.member?_object_of_mem (by simp [given]) (by simp [given]) nofun

/-- A request is read as it was written. -/
theorem read_document {request : WriteRequest} (readable : request.IsReadable) :
    read request.document = .ok request := by
  have put_eq : (request.put?.map fun content => Form.object [("Item", ofItem content)]).mapM
      (Form.fieldD · "Item" item ∅) = .ok request.put? := by
    cases put?_eq : request.put? with
    | none => rfl
    | some content => exact congrArg (some <$> ·) (item_ofItem (readable.1 content put?_eq))
  have delete_eq : (request.delete?.map fun content => Form.object [("Key", ofItem content)]).mapM
      (Form.fieldD · "Key" item ∅) = .ok request.delete? := by
    cases delete?_eq : request.delete? with
    | none => rfl
    | some content => exact congrArg (some <$> ·) (item_ofItem (readable.2 content delete?_eq))
  rw [read, member?_put, member?_delete, put_eq, delete_eq]
  rfl

end WriteRequest

/-! ## What is sent and what comes back -/

def sentWrites (requests : List BatchWrite) : NameMap (List WriteRequest) :=
  byTable (requests.map fun request => (request.table, .of request))

def sentKeys (refs : List KeyRef) : NameMap (List Item) :=
  byTable (refs.map fun ref => (ref.table, ref.key))

def unprocessedItems (body : Document) : Form.Reading (NameMap (List WriteRequest)) :=
  Form.fieldD body "UnprocessedItems" (Form.nameMap (Form.list WriteRequest.read)) ∅

def unprocessedKeys (body : Document) : Form.Reading (NameMap (List Item)) :=
  Form.fieldD body "UnprocessedKeys" (Form.nameMap (listMember · "Keys" item)) ∅

def responses (body : Document) : Form.Reading (NameMap (List Item)) :=
  Form.fieldD body "Responses" (Form.nameMap (Form.list item)) ∅

theorem groupOf_sentWrites (requests : List BatchWrite) (table : String) :
    groupOf (sentWrites requests) table =
      (requests.filter fun request => request.table = table).map .of := by
  rw [sentWrites, groupOf_byTable]
  exact forTable_map BatchWrite.table WriteRequest.of table requests

theorem groupOf_sentKeys (refs : List KeyRef) (table : String) :
    groupOf (sentKeys refs) table = (refs.filter fun ref => ref.table = table).map (·.key) := by
  rw [sentKeys, groupOf_byTable]
  exact forTable_map KeyRef.table KeyRef.key table refs

theorem bodyMembers_batchWrite (requests : List BatchWrite) :
    bodyMembers (.batchWrite requests) =
      [("RequestItems", Form.ofNameMap (Form.array WriteRequest.document) (sentWrites requests))] := by
  have entries_eq : requests.map batchEntry =
      (requests.map fun request => (request.table, WriteRequest.of request)).map
        fun thing => (thing.1, thing.2.document) := by
    rw [List.map_map]
    exact List.map_congr_left fun request _ => WriteRequest.batchEntry_eq request
  rw [bodyMembers, entries_eq, byTable_map]
  simp [Form.ofNameMap, NameMap.map, Form.array, sentWrites]

theorem bodyMembers_batchRead (refs : List KeyRef) :
    bodyMembers (.batchRead refs) =
      [("RequestItems", Form.ofNameMap (fun keys => Form.object [("Keys", Form.array ofItem keys)])
        (sentKeys refs))] := by
  have entries_eq : (refs.map fun ref => (ref.table, ofItem ref.key)) =
      (refs.map fun ref => (ref.table, ref.key)).map fun thing => (thing.1, ofItem thing.2) := by
    rw [List.map_map]
    rfl
  rw [bodyMembers, entries_eq, byTable_map]
  simp [Form.ofNameMap, NameMap.map, Form.array, sentKeys]

/-! ## Reading what comes back -/

section Readings

variable {α β ε : Type}

/-- Two entries are of one name, and their values are related. -/
def Entrywise (relation : α → β → Prop) (first : String × α) (second : String × β) : Prop :=
  first.1 = second.1 ∧ relation first.2 second.2

variable {relation : α → β → Prop}

theorem forall₂_insertEntry {entries : List (String × α)} {others : List (String × β)}
    (related : List.Forall₂ (Entrywise relation) entries others) (name : String) {value : α} {other : β}
    (isRelated : relation value other) :
    List.Forall₂ (Entrywise relation) (NameMap.insertEntry name value entries)
      (NameMap.insertEntry name other others) := by
  induction related with
  | nil => exact .cons ⟨rfl, isRelated⟩ .nil
  | @cons entry entry' entries others same related inductionHypothesis =>
    obtain ⟨n, v⟩ := entry
    obtain ⟨n', v'⟩ := entry'
    obtain ⟨rfl, isRelatedValue⟩ := same
    rw [NameMap.insertEntry, NameMap.insertEntry]
    split
    · exact .cons ⟨rfl, isRelated⟩ (.cons ⟨rfl, isRelatedValue⟩ related)
    · split
      · exact .cons ⟨rfl, isRelatedValue⟩ inductionHypothesis
      · exact .cons ⟨rfl, isRelated⟩ related

theorem forall₂_ofList {entries : List (String × α)} {others : List (String × β)}
    (related : List.Forall₂ (Entrywise relation) entries others) :
    List.Forall₂ (Entrywise relation) (NameMap.ofList entries).entries (NameMap.ofList others).entries := by
  have insertAll_related {m : NameMap α} {m' : NameMap β}
      (before : List.Forall₂ (Entrywise relation) m.entries m'.entries) :
      List.Forall₂ (Entrywise relation) (m.insertAll entries).entries (m'.insertAll others).entries := by
    induction related generalizing m m' with
    | nil => exact before
    | @cons entry entry' entries others same _ inductionHypothesis =>
      obtain ⟨name_eq, isRelated⟩ := same
      refine inductionHypothesis ?_
      change List.Forall₂ _ (NameMap.insertEntry entry.1 _ _) _
      rw [name_eq]
      exact forall₂_insertEntry before entry'.1 isRelated
  exact insertAll_related .nil

section Steps

variable {first : Document → Form.Reading α} {second : α → Form.Reading β}

theorem exists_entries {members : List (String × Document)} {entries : List (String × β)}
    (each : List.Forall₂ (fun member entry =>
      (do return (member.1, ← first member.2 >>= second) : Form.Reading (String × β)) = .ok entry)
      members entries) :
    ∃ middle : List (String × α),
      List.Forall₂ (fun member entry =>
        (do return (member.1, ← first member.2) : Form.Reading (String × α)) = .ok entry)
        members middle ∧
      List.Forall₂ (Entrywise fun value other => second value = .ok other) middle entries := by
  induction each with
  | nil => exact ⟨[], .nil, .nil⟩
  | @cons member entry members entries isRead _ inductionHypothesis =>
    obtain ⟨middle, readFirst, related⟩ := inductionHypothesis
    obtain ⟨other, isOther, answer⟩ := bind_eq_ok.1 isRead
    obtain rfl := Except.ok.inj answer
    obtain ⟨value, isValue, isOther⟩ := bind_eq_ok.1 isOther
    refine ⟨(member.1, value) :: middle, .cons ?_ readFirst, .cons ⟨rfl, isOther⟩ related⟩
    rw [isValue]
    rfl

/-- If members are read in two steps, the first can be made for all of them before the second. -/
theorem exists_nameMap {d : Document} {m : NameMap β}
    (reads : Form.nameMap (fun d => first d >>= second) d = .ok m) :
    ∃ middle, Form.nameMap first d = .ok middle ∧
      List.Forall₂ (Entrywise fun value other => second value = .ok other) middle.entries m.entries := by
  unfold Form.nameMap at reads
  obtain ⟨members, members_eq, reads⟩ := bind_eq_ok.1 reads
  obtain ⟨entries, mapped, answer⟩ := bind_eq_ok.1 reads
  obtain rfl := Except.ok.inj answer
  obtain ⟨middle, readFirst, related⟩ := exists_entries (forall₂_of_mapM mapped)
  refine ⟨NameMap.ofList middle, ?_, forall₂_ofList related⟩
  exact bind_eq_ok.2 ⟨members, members_eq, bind_eq_ok.2 ⟨middle, mapM_of_forall₂ readFirst, rfl⟩⟩

end Steps

theorem forall₂_ungrouped {groups : NameMap (List α)} {others : NameMap (List β)}
    (related : List.Forall₂ (Entrywise (List.Forall₂ relation)) groups.entries others.entries) :
    List.Forall₂ (Entrywise relation) (ungrouped groups) (ungrouped others) := by
  unfold ungrouped
  generalize groups.entries = entries, others.entries = entries' at related
  induction related with
  | nil => exact .nil
  | @cons entry entry' entries others same _ inductionHypothesis =>
    obtain ⟨name, group⟩ := entry
    obtain ⟨name', group'⟩ := entry'
    obtain ⟨rfl, relatedGroup⟩ := same
    rw [List.flatMap_cons, List.flatMap_cons]
    refine List.rel_append ?_ inductionHypothesis
    rw [List.forall₂_map_left_iff, List.forall₂_map_right_iff]
    exact relatedGroup.imp fun _ _ isRelated => ⟨rfl, isRelated⟩

end Readings

theorem tableMember_eq {α : Type} {body : Document} {name : String}
    {read : Document → Form.Reading (List α)} {groups : NameMap (List α)}
    (reads : Form.fieldD body name (Form.nameMap read) ∅ = .ok groups) :
    tableMember body name read = .ok (ungrouped groups) := by
  rw [tableMember, reads]
  rfl

/-- What a body leaves unprocessed is restored request by request. -/
theorem answerOf_batchWrite {body : Document} {left : NameMap (List WriteRequest)}
    (reads : unprocessedItems body = .ok left) (requests : List BatchWrite) :
    answerOf body (.batchWrite requests) =
      .ok ((ungrouped left).filterMap fun thing => thing.2.restore thing.1) := by
  -- the groups are taken apart for all tables before any request in them is read
  obtain ⟨groups, groups_eq, related⟩ : ∃ groups,
      Form.fieldD body "UnprocessedItems" (Form.nameMap Form.elements) ∅ = .ok groups ∧
      List.Forall₂ (Entrywise (List.Forall₂ fun d request => WriteRequest.read d = .ok request))
        groups.entries left.entries := by
    unfold unprocessedItems Form.fieldD at reads
    unfold Form.fieldD
    generalize Form.member? body "UnprocessedItems" = member? at reads ⊢
    cases member? with
    | none =>
      obtain rfl := Except.ok.inj reads
      exact ⟨∅, rfl, .nil⟩
    | some d =>
      have inSteps : Form.nameMap (fun d => Form.elements d >>= (·.mapM WriteRequest.read)) d = .ok left :=
        reads
      obtain ⟨groups, groups_eq, related⟩ := exists_nameMap inSteps
      refine ⟨groups, groups_eq, related.imp fun entry other same => ⟨same.1, forall₂_of_mapM same.2⟩⟩
  have restored : (ungrouped groups).mapM (fun thing => unprocessedWrite thing.1 thing.2) =
      .ok ((ungrouped left).map fun thing => thing.2.restore thing.1) := by
    refine mapM_of_forall₂ (List.forall₂_map_right_iff.2 ((forall₂_ungrouped related).imp ?_))
    rintro ⟨table, d⟩ ⟨_, request⟩ ⟨rfl, isRead⟩
    exact (WriteRequest.unprocessedWrite_eq table d).trans (congrArg _ isRead)
  refine bind_eq_ok.2 ⟨_, tableMember_eq groups_eq, bind_eq_ok.2 ⟨_, restored, ?_⟩⟩
  rw [List.filterMap_map]
  rfl

theorem answerOf_batchRead {body : Document} {found left : NameMap (List Item)}
    (holds : responses body = .ok found) (reads : unprocessedKeys body = .ok left) (refs : List KeyRef) :
    answerOf body (.batchRead refs) =
      .ok ⟨(ungrouped found).map (·.2), (ungrouped left).map fun thing => ⟨thing.1, thing.2⟩⟩ := by
  rw [answerOf, tableMember_eq holds, tableMember_eq reads]
  rfl

end SingleTable.Wire
