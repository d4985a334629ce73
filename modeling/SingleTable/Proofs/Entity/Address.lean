import SingleTable.Entity.Reads
import SingleTable.Proofs.Entity.Update

/-!
# Where an item is found

All requests that name an item by its attributes name it by its primary key
(`Entity.addresses_of_primaryKey`).  A create puts the item itself, whose key the table reads off
it.  The item is written in layers: its attributes, its primary key, and over both the values of
indexes and the marker.  So it is found again exactly if what is written last leaves the primary key
as it is (`Entity.isAbout_created_iff`).

Nothing in the layout of an entity rules out an index that has a key attribute of the table for its
own, as an inverted index does, and then the item is put where no other request looks for it.
-/

namespace SingleTable

/-! ## The key of an item -/

/-- The key of a table's item is the item that has the values of its key attributes and no others. -/
theorem Table.keyOf?_eq_some_iff {table : Table} {item key : Item}
    (complete : ∀ name ∈ table.keyAttributes, key.contains name = true)
    (others : ∀ name, name ∉ table.keyAttributes → key.get? name = none) :
    table.keyOf? item = some key ↔ ∀ name ∈ table.keyAttributes, item.get? name = key.get? name := by
  constructor
  · intro isKey name isName
    unfold keyOf? at isKey
    split at isKey
    · obtain rfl := Option.some.inj isKey
      rw [NameMap.get?_filter]
      cases item.get? name <;> simp [Option.filter, isName]
    · cases isKey
  · intro same
    exact Table.keyOf?_eq_some (fun name isName => (same name isName).symm) complete others

namespace Entity

variable {entity : Entity} {declaration : Declaration}

/-! ## The layers of an item -/

theorem addIndexes_eq_map (attributes : Item) (indexes : List IndexLayout) (item : Item) :
    addIndexes attributes indexes item = (addIndexes attributes indexes ∅).map item.union := by
  induction indexes generalizing item with
  | nil => rfl
  | cons index indexes inductionHypothesis =>
    unfold addIndexes
    split
    · next values _ =>
      rw [inductionHypothesis, inductionHypothesis ((∅ : Item).insertAll values)]
      cases addIndexes attributes indexes ∅ with
      | error error => rfl
      | ok added =>
        have layers_eq : (item.insertAll values).union added =
            item.union (((∅ : Item).insertAll values).union added) := by
          rw [NameMap.insertAll_eq_union, NameMap.union_assoc]
          rfl
        exact congrArg Except.ok layers_eq
    · exact inductionHypothesis item
    · rfl

/-- What is written over the attributes and the primary key of an item: the values of its indexes,
and the marker. -/
def overlay (entity : Entity) (attributes : Item) : Except Error Item := do
  let indexed ← addIndexes attributes entity.indexes ∅
  return indexed.insert entityMarker (.string entity.name)

theorem toPhysical_eq_layers {draw : String → Moment} {attributes item : Item}
    (written : entity.toPhysical draw attributes = .ok item) :
    ∃ key overlaid, entity.primaryKey (entity.applyDefaults draw attributes) = .ok key ∧
      entity.overlay (entity.applyDefaults draw attributes) = .ok overlaid ∧
      item = ((entity.applyDefaults draw attributes).union key).union overlaid := by
  obtain ⟨key, indexed, isKey, isIndexed, rfl⟩ := toPhysical_eq_ok written
  rw [addIndexes_eq_map] at isIndexed
  obtain ⟨added, isAdded, rfl⟩ := map_eq_ok.1 isIndexed
  refine ⟨key, added.insert entityMarker (.string entity.name), isKey,
    bind_eq_ok.2 ⟨added, isAdded, rfl⟩, ?_⟩
  apply NameMap.ext_get?
  intro name
  rw [NameMap.get?_insert, NameMap.get?_union, NameMap.get?_union _ (NameMap.insert _ _ _),
    NameMap.get?_insert]
  split <;> rfl

end Entity

/-! ## What a request is about -/

/-- A write is about the item with a key: it reads no other, and the first of its operations is on
it, whatever was read. -/
def PendingWrite.IsAbout (table : Table) (key : Item) (write : PendingWrite) : Prop :=
  ∃ main : WriteOperation, main.table = table.name ∧ main.key? table = some key ∧
    match write with
    | .direct operations => operations.head? = some main
    | .afterRead _ item resolve => item = ⟨table.name, key⟩ ∧
      ∀ prior operations, resolve prior = .ok operations → operations.head? = some main

namespace Entity

variable {entity : Entity} {declaration : Declaration}

/-- Every request for an item by some attributes is about the item with a key. -/
structure Addresses (entity : Entity) (attributes key : Item) : Prop where
  keyRef : entity.keyRef attributes = .ok ⟨entity.table.name, key⟩
  get : ∀ options request, entity.getRequest attributes options = .ok request →
    request.table = entity.table.name ∧ request.key = key
  update : ∀ draw body options write, entity.updateWrite draw attributes body options = .ok write →
    write.IsAbout entity.table key
  delete : ∀ options write, entity.deleteWrite attributes options = .ok write →
    write.IsAbout entity.table key
  /-- Nothing but a selection or a condition can make these fail. -/
  plain : (entity.getRequest attributes {}).isOk = true ∧ (entity.deleteWrite attributes {}).isOk = true

theorem addresses_of_primaryKey {attributes key : Item}
    (isKey : entity.primaryKey attributes = .ok key) : entity.Addresses attributes key where
  keyRef := bind_eq_ok.2 ⟨key, isKey, rfl⟩
  get := by
    intro options request isRequest
    obtain ⟨found, isFound, rest⟩ := bind_eq_ok.1 isRequest
    obtain ⟨⟨projection, bindings⟩, -, answer⟩ := bind_eq_ok.1 rest
    obtain rfl := Except.ok.inj answer
    rw [isKey] at isFound
    exact ⟨rfl, (Except.ok.inj isFound).symm⟩
  update := by
    intro draw body options write written
    obtain ⟨request, changes, changed, writes⟩ := updateWrite_eq_ok written
    obtain rfl : key = request.key := Except.ok.inj (isKey.symm.trans writes.key)
    refine ⟨.update request, writes.table, rfl, ?_⟩
    rw [writes.write]
    by_cases noUnique : changed.isEmpty = true
    · rw [if_pos noUnique]
      rfl
    · rw [if_neg noUnique]
      exact ⟨rfl, fun prior operations => head_resolveUpdate⟩
  delete := by
    intro options write written
    obtain ⟨request, isFound, onTable, -, rfl⟩ := deleteWrite_eq_ok written
    obtain rfl : key = request.key := Except.ok.inj (isKey.symm.trans isFound)
    refine ⟨.delete request, onTable, rfl, ?_⟩
    by_cases hasUniques : entity.hasUniques = true
    · rw [if_pos hasUniques]
      exact ⟨rfl, fun prior operations => head_resolveDelete⟩
    · rw [if_neg hasUniques]
      rfl
  plain := by
    constructor
    · rw [getRequest, isKey]
      rfl
    · rw [deleteWrite, isKey]
      cases entity.hasUniques <;> rfl

/-! ## What a create is about -/

theorem createWrite_eq_ok {draw : String → Moment} {attributes : Item} {options : CreateOptions}
    {write : PendingWrite} (created : entity.createWrite draw attributes options = .ok write) :
    ∃ put claims, write = .direct (.put put :: claims) ∧ put.table = entity.table.name ∧
      entity.toPhysical draw attributes = .ok put.item := by
  obtain ⟨put, claims, rfl, writes⟩ := writesCreate_of_createWrite created
  exact ⟨put, claims, rfl, writes.table, writes.item⟩

theorem isAbout_put_iff {put : PutRequest} {claims : List WriteOperation} {key : Item}
    (onTable : put.table = entity.table.name) :
    (PendingWrite.direct (.put put :: claims)).IsAbout entity.table key ↔
      entity.table.keyOf? put.item = some key := by
  constructor
  · rintro ⟨main, -, isKey, head_eq⟩
    obtain rfl := Option.some.inj head_eq
    exact isKey
  · intro isKey
    exact ⟨.put put, onTable, isKey, rfl⟩

theorem primaryKey_eq_ok {attributes others key : Item}
    (agree : ∀ name, entity.isKeyAttribute name = true → others.get? name = attributes.get? name)
    (isKey : entity.primaryKey attributes = .ok key) : entity.primaryKey others = .ok key := by
  obtain ⟨values, resolved, rfl⟩ := Key.resolve_eq_ok isKey
  have same : ∀ part ∈ entity.key.parts, ∀ name ∈ part.names,
      attributes.present? name = others.present? name := by
    intro part isPart name isName
    have isKeyAttribute : entity.isKeyAttribute name = true :=
      List.any_eq_true.2 ⟨part, isPart, List.contains_iff_mem.2 isName⟩
    rw [Item.present?, Item.present?, agree name isKeyAttribute]
  rw [primaryKey, Key.resolve, KeyPart.resolveAll_eq_ok same resolved]

theorem contains_primaryKey {attributes key : Item} (isKey : entity.primaryKey attributes = .ok key)
    {name : String} (isName : name ∈ entity.key.parts.map (·.attr)) : key.contains name = true := by
  obtain ⟨values, resolved, rfl⟩ := Key.resolve_eq_ok isKey
  exact NameMap.contains_ofList (by rwa [KeyPart.names_of_resolveAll resolved])

/-- Attributes that agree with a created item on what its key is derived from address one item in
all requests.  The create puts that item if and only if no index and no marker is written over its
key with another value. -/
theorem isAbout_created_iff {defaultTable : Option Table}
    (compiled : declaration.compile defaultTable = .ok entity) {draw : String → Moment}
    {attributes others : Item} {options : CreateOptions} {write : PendingWrite}
    (created : entity.createWrite draw attributes options = .ok write)
    (agree : ∀ name, entity.isKeyAttribute name = true →
      others.get? name = (entity.applyDefaults draw attributes).get? name) :
    ∃ key overlaid, entity.Addresses others key ∧
      entity.overlay (entity.applyDefaults draw attributes) = .ok overlaid ∧
      (write.IsAbout entity.table key ↔
        ∀ name ∈ entity.table.keyAttributes, ∀ value,
          overlaid.get? name = some value → key.get? name = some value) := by
  obtain ⟨put, claims, rfl, onTable, written⟩ := createWrite_eq_ok created
  obtain ⟨key, overlaid, isKey, isOverlaid, item_eq⟩ := toPhysical_eq_layers written
  refine ⟨key, overlaid, addresses_of_primaryKey (primaryKey_eq_ok agree isKey), isOverlaid, ?_⟩
  have keyNames : entity.key.parts.map (·.attr) = entity.table.keyAttributes :=
    (Declaration.keyOn_eq_ok (Declaration.laysOut_of_compile compiled).key).2.2.1
  have complete : ∀ name ∈ entity.table.keyAttributes, key.contains name = true :=
    fun name isName => contains_primaryKey isKey (keyNames ▸ isName)
  have noOthers : ∀ name, name ∉ entity.table.keyAttributes → key.get? name = none :=
    fun name absent => Key.get?_resolve_of_not_mem isKey (keyNames ▸ absent)
  rw [isAbout_put_iff onTable, Table.keyOf?_eq_some_iff complete noOthers]
  refine forall₂_congr fun name isName => ?_
  obtain ⟨value, value_eq⟩ := Option.isSome_iff_exists.1 (complete name isName)
  rw [item_eq, NameMap.get?_union, NameMap.get?_union, value_eq]
  cases overlaid.get? name <;> simp [eq_comm]

end Entity

/-! ## Users ordered by name under the partition key of their table -/

def directoryTable : Table := .ofIndexes
  [("GSI1", ⟨.globalIndex, some "GSI1PK", "PK", true⟩)]

def directoryDeclaration : Declaration where
  name := "USER"
  table := some directoryTable
  key := ⟨.text "USER#\x7b\x7bid\x7d\x7d", none⟩
  indexes := [("GSI1",
    ⟨.globalIndex, some (.text "USERS"), .text "NAME#\x7b\x7bname\x7d\x7d", none⟩)]
  attributes := [{ name := "id", type := .string }, { name := "name", type := .string }]

def directoryEntity : Entity where
  name := "USER"
  table := directoryTable
  attributes := directoryDeclaration.attributes
  key := ⟨⟨"PK", .text "USER#\x7b\x7bid\x7d\x7d"⟩, none⟩
  indexes := [⟨"GSI1", .globalIndex, some ⟨"GSI1PK", .text "USERS"⟩,
    ⟨"PK", .text "NAME#\x7b\x7bname\x7d\x7d"⟩, true⟩]
  uniques := []

def directoryUser : Item := .ofList [("id", .string "1"), ("name", .string "ann")]

def directoryWrite : Except Error PendingWrite :=
  directoryEntity.createWrite (fun _ => ⟨0, fun _ => 0⟩) directoryUser {}

def directoryQuery : Item := .ofList [("id", .string "1")]

/-- The declaration compiles and the user is created, but where none of the requests for the user
with that id looks. -/
theorem not_isAbout_directoryWrite :
    directoryDeclaration.compile none = .ok directoryEntity ∧
      ∃ write key, directoryWrite = .ok write ∧ directoryEntity.Addresses directoryQuery key ∧
        ¬ write.IsAbout directoryEntity.table key := by
  have compiled : directoryDeclaration.compile none = .ok directoryEntity := by
    with_unfolding_all rfl
  refine ⟨compiled, ?_⟩
  have creates : directoryWrite.isOk = true := by decide +kernel
  cases created : directoryWrite with
  | error error => simp [created, Except.isOk, Except.toBool] at creates
  | ok write =>
    have keyNames : directoryEntity.key.parts.flatMap (·.names) = ["id"] := by decide +kernel
    have agree : ∀ name, directoryEntity.isKeyAttribute name = true →
        directoryQuery.get? name =
          (directoryEntity.applyDefaults (fun _ => ⟨0, fun _ => 0⟩) directoryUser).get? name := by
      intro name isKeyAttribute
      obtain ⟨part, isPart, isName⟩ := List.any_eq_true.1 isKeyAttribute
      have isMember := List.mem_flatMap.2 ⟨part, isPart, List.contains_iff_mem.1 isName⟩
      obtain rfl := List.mem_singleton.1 (keyNames ▸ isMember)
      decide +kernel
    obtain ⟨key, overlaid, addresses, isOverlaid, isAbout_iff⟩ :=
      Entity.isAbout_created_iff compiled created agree
    refine ⟨write, key, rfl, addresses, ?_⟩
    rw [isAbout_iff]
    intro keeps
    have overlaid_eq : overlaid.get? "PK" = some (.string "NAME#ann") := by
      have evaluated : ((directoryEntity.overlay (directoryEntity.applyDefaults
          (fun _ => ⟨0, fun _ => 0⟩) directoryUser)).toOption.bind (·.get? "PK")) =
          some (.string "NAME#ann") := by decide +kernel
      rwa [isOverlaid] at evaluated
    have key_eq : key.get? "PK" = some (.string "USER#1") := by
      have evaluated : (directoryEntity.keyRef directoryQuery).toOption.bind (·.key.get? "PK") =
          some (.string "USER#1") := by decide +kernel
      rwa [addresses.keyRef] at evaluated
    have same := keeps "PK" (by decide) _ overlaid_eq
    rw [key_eq] at same
    exact absurd same (by decide)

end SingleTable
