import SingleTable.Proofs.Store.Log
import SingleTable.Proofs.Unique.Sequential
import SingleTable.Proofs.Unique.Undoing

/-!
# Creates that replace items

A create that may overwrite writes what any create writes, only without the guard of the item: it
claims every unique value and releases none.  So it fails if the item that it replaces holds one of
its values, and if it succeeds the records of the replaced item stay behind
(`Entity.replaces_iff`).
-/

namespace SingleTable

/-! ## Steps of a create -/

/-- A result that takes no call is handed on. -/
theorem Operation.lift_ok_bind {α β : Type} (value : α) (next : α → Operation β) :
    (liftM (Except.ok value : Except Error α) : Operation α) >>= next = next value := rfl

/-- Within the limit, operations that are ready are submitted as they are. -/
theorem Connection.executeWrites_direct {connection : Connection} {operations : List WriteOperation}
    (fits : operations.length ≤ connection.config.maxTransactionItems) :
    connection.executeWrites [.direct operations] = submit operations := by
  have executes_eq : connection.executeWrites [.direct operations] = (do
      if connection.config.maxTransactionItems < (operations ++ []).length then
        throw (.transactionTooLarge 1 (operations ++ []).length connection.config.maxTransactionItems)
      submit (operations ++ []) : Operation Unit) := rfl
  rw [executes_eq, List.append_nil, if_neg (by omega)]

/-- An operation carries out a transaction, or it fails and changes nothing. -/
def Service.WritesAs (service : Service) (table : Table) (operations : List WriteOperation)
    (writing : Operation Unit) : Prop :=
  ∀ rows,
    (∃ after log, service.transact table rows operations = some after ∧
      writing.Yields (service.store table) rows log (.ok ⟨⟩) after) ∨
    service.transact table rows operations = none ∧
      ∃ error log, writing.Yields (service.store table) rows log (.error error) rows

section Writing

variable {service : Service} {table : Table} (willing : ∀ call, service.refuses call = none)
include willing

theorem Service.write_of_willing {call : Call} {operations : List WriteOperation}
    (operations_eq : call.operations? = some operations) (rows : Rows) :
    service.write table rows call = service.transact table rows operations := by
  simp [Service.write, operations_eq, willing]

theorem Service.writesAs_put (put : PutRequest) :
    service.WritesAs table [.put put] (Operation.ask (.put put)) := by
  intro rows
  have asked : (Operation.ask (.put put)).Yields (service.store table) rows _ _ _ :=
    Operation.yields_ask (.put put)
  rw [Service.store, write_of_willing willing rfl] at asked
  cases transacted : service.transact table rows [.put put] with
  | none =>
    rw [transacted] at asked
    exact .inr ⟨rfl, _, _, asked⟩
  | some after =>
    rw [transacted] at asked
    exact .inl ⟨after, _, rfl, asked⟩

theorem Service.writesAs_submit (first : WriteOperation) (others : List WriteOperation) :
    service.WritesAs table (first :: others) (Connection.submit (first :: others)) := by
  intro rows
  have asked : (Operation.ask (.transactWrite (first :: others))).Yields (service.store table) rows
      _ _ _ := Operation.yields_ask (.transactWrite (first :: others))
  rw [Service.store, write_of_willing willing rfl, willing] at asked
  cases transacted : service.transact table rows (first :: others) with
  | none =>
    rw [transacted] at asked
    exact .inr ⟨rfl, _, _, asked.bind (Operation.yields_ofExcept (.error _))⟩
  | some after =>
    rw [transacted] at asked
    exact .inl ⟨after, _, rfl, asked.bind (Operation.yields_pure ())⟩

end Writing

namespace Entity

variable {entity : Entity}

/-! ## Records of an item -/

/-- A record of a unique value of an item. -/
def HasRecord (entity : Entity) (item record : Item) : Prop :=
  ∃ attr ∈ entity.uniqueNames, ∃ value,
    item.present? attr = some value ∧ entity.uniqueRecord attr value = .ok (some record)

/-- The records are those of the items, and each is that of one item only. -/
structure Accounted (entity : Entity) (rows : Rows) : Prop where
  records : ∀ record, entity.IsRecord record → ((rows record).isSome ↔
    ∃ key item, entity.Live key ∧ rows key = some item ∧ entity.HasRecord item record)
  alone : ∀ key other item otherItem record, entity.Live key → entity.Live other →
    rows key = some item → rows other = some otherItem → entity.HasRecord item record →
    entity.HasRecord otherItem record → key = other

theorem HasRecord.isRecord {item record : Item} (hasRecord : entity.HasRecord item record) :
    entity.IsRecord record := by
  obtain ⟨attr, -, value, -, isRecord⟩ := hasRecord
  exact ⟨attr, value, isRecord⟩

theorem HasRecord.ne_live {item record key : Item} (hasRecord : entity.HasRecord item record)
    (live : entity.Live key) : key ≠ record := by
  rintro rfl
  exact live hasRecord.isRecord

section Records

variable (enforces : entity.Enforces)
include enforces

theorem hasRecord_iff {item record : Item} :
    entity.HasRecord item record ↔ ∃ attr ∈ entity.uniqueNames, ∃ value text,
      item.present? attr = some value ∧ value.keyText? = some text ∧
        record = entity.recordKey attr text := by
  constructor
  · rintro ⟨attr, isUnique, value, holds, isRecord⟩
    obtain ⟨unique, isMember, rfl⟩ := List.mem_map.1 isUnique
    rw [uniqueRecord, unique?_eq enforces isMember] at isRecord
    obtain ⟨key, resolved, key_eq⟩ := map_eq_ok.1 isRecord
    obtain rfl := Option.some.inj key_eq
    obtain ⟨found, text, found_eq, text_eq, rfl⟩ := (resolve_unique enforces isMember).1 resolved
    have notNull : value.isNull = false := by
      simpa using (Option.filter_eq_some_iff.1 holds).2
    rw [present?_single notNull] at found_eq
    obtain rfl := Option.some.inj found_eq
    exact ⟨unique.attr, isUnique, value, text, holds, text_eq, rfl⟩
  · rintro ⟨attr, isUnique, value, text, holds, text_eq, rfl⟩
    exact ⟨attr, isUnique, value, holds, uniqueRecord_eq enforces isUnique text_eq⟩

/-- Of texts, records that are accounted for mirror the items. -/
theorem accounted_iff_mirrored {rows : Rows} (textual : entity.Textual rows) :
    entity.Accounted rows ↔ entity.Mirrored rows := by
  -- one speaks of items with a record, the other of the values that they hold
  have holders : ∀ record, (∃ key item, entity.Live key ∧ rows key = some item ∧
      entity.HasRecord item record) ↔
      ∃ attr ∈ entity.uniqueNames, ∃ value key, entity.Live key ∧
        rows.held key attr = some value ∧ entity.uniqueRecord attr value = .ok (some record) := by
    intro record
    constructor
    · rintro ⟨key, item, live, row, attr, isUnique, value, holds, isRecord⟩
      exact ⟨attr, isUnique, value, key, live, by rwa [Rows.held, row], isRecord⟩
    · rintro ⟨attr, isUnique, value, key, live, holds, isRecord⟩
      obtain ⟨item, row, holds⟩ := Option.bind_eq_some_iff.1 holds
      exact ⟨key, item, live, row, attr, isUnique, value, holds, isRecord⟩
  constructor
  · rintro ⟨records, alone⟩
    refine ⟨fun record isRecord => (records record isRecord).trans (holders record), ?_⟩
    intro attr isUnique value key other live otherLive holds otherHolds
    obtain ⟨text, rfl⟩ := textual attr isUnique key value live holds
    obtain ⟨item, row, holds⟩ := Option.bind_eq_some_iff.1 holds
    obtain ⟨otherItem, otherRow, otherHolds⟩ := Option.bind_eq_some_iff.1 otherHolds
    have isRecord := uniqueRecord_string enforces isUnique text
    exact alone key other item otherItem _ live otherLive row otherRow
      ⟨attr, isUnique, _, holds, isRecord⟩ ⟨attr, isUnique, _, otherHolds, isRecord⟩
  · rintro ⟨records, distinct⟩
    refine ⟨fun record isRecord => (records record isRecord).trans (holders record).symm, ?_⟩
    rintro key other item otherItem record live otherLive row otherRow
      ⟨attr, isUnique, value, holds, isRecord⟩ ⟨otherAttr, isOther, otherValue, otherHolds, sameRecord⟩
    have holds : rows.held key attr = some value := by rwa [Rows.held, row]
    have otherHolds : rows.held other otherAttr = some otherValue := by rwa [Rows.held, otherRow]
    obtain ⟨text, rfl⟩ := textual attr isUnique key value live holds
    obtain ⟨otherText, rfl⟩ := textual otherAttr isOther other otherValue otherLive otherHolds
    rw [uniqueRecord_string enforces isUnique] at isRecord
    rw [uniqueRecord_string enforces isOther, ← isRecord] at sameRecord
    obtain ⟨rfl, rfl⟩ :=
      recordKey_inj enforces isOther isUnique (Option.some.inj (Except.ok.inj sameRecord))
    exact distinct otherAttr isUnique _ key other live otherLive holds otherHolds

end Records

/-! ## Writing a new item -/

section Create

variable {draw : String → Moment} {attributes : Item} {put : PutRequest}
  {claims : List WriteOperation} {service : Service} {rows : Rows}

/-- A record can be claimed exactly if it is not there. -/
theorem plan_claim_iff (enforces : entity.Enforces) (placed : rows.Placed entity.table)
    {record : Item} (isRecord : entity.IsRecord record) {operation : WriteOperation}
    (claimed : entity.claim record = .ok operation) :
    (∃ plan, service.plan entity.table rows operation = some plan) ↔ rows record = none := by
  obtain ⟨attr, -, text, rfl⟩ := (isRecord_iff enforces).1 isRecord
  have isWord := isWord_keyAttributes enforces
  constructor
  · rintro ⟨plan, isPlan⟩
    have key_eq := Service.key?_of_plan isPlan
    rw [key?_of_claim enforces claimed] at key_eq
    obtain ⟨request, rfl, -, needsVacancy⟩ := claim_eq_ok isWord claimed
    obtain ⟨-, -, meets⟩ := Service.plan_put isPlan
    rw [← Option.some.inj key_eq] at meets
    exact placed.eq_none (needsVacancy service _ meets)
  · intro isVacant
    obtain ⟨⟨condition, bindings⟩, written, answer⟩ := bind_eq_ok.1 claimed
    obtain rfl := Except.ok.inj answer
    have plain : ∀ path ∈ entity.keyAbsent.paths, Path.IsPlain path := by
      rw [paths_keyAbsent]
      exact fun name isKey => Path.isPlain_of_isWord (isWord name isKey)
    have meets : service.meets (rows.read (entity.recordKey attr text)) condition bindings = true := by
      rw [meets_writeCondition plain written, accepts_keyAbsent, List.all_eq_true, Rows.read, isVacant]
      intro name isKey
      rw [accepts_absent (isWord name isKey)]
      rfl
    refine ⟨(entity.recordKey attr text, some (entity.recordKey attr text)), ?_⟩
    simp [Service.plan, keyOf?_recordKey, meets]

/-- The claims of a create are those of the records of its item, each made once. -/
structure ClaimsRecords (entity : Entity) (item : Item) (claims : List WriteOperation) : Prop where
  each : ∀ operation ∈ claims, ∃ record, entity.HasRecord item record ∧
    entity.claim record = .ok operation ∧ operation.key? entity.table = some record
  all : ∀ record, entity.HasRecord item record → ∃ operation ∈ claims,
    entity.claim record = .ok operation ∧ operation.key? entity.table = some record
  nodup : (claims.map (·.key? entity.table)).Nodup

/-- Claims for different attributes are about different records. -/
theorem nodup_keys_of_claims (enforces : entity.Enforces) {uniques : List UniqueLayout}
    (claimsEach : List.Forall₂ (fun unique operation => unique.attr ∈ entity.uniqueNames ∧
      ∃ text, operation.key? entity.table = some (entity.recordKey unique.attr text)) uniques claims)
    (nodup : (uniques.map (·.attr)).Nodup) : (claims.map (·.key? entity.table)).Nodup := by
  induction claimsEach with
  | nil => simp
  | cons first others inductionHypothesis =>
    obtain ⟨isUnique, text, key_eq⟩ := first
    rw [List.map_cons, List.nodup_cons] at nodup ⊢
    refine ⟨?_, inductionHypothesis nodup.2⟩
    intro isLater
    obtain ⟨operation, isOperation, same⟩ := List.mem_map.1 isLater
    obtain ⟨other, isMember, isOther, otherText, otherKey_eq⟩ := exists_of_forall₂ others isOperation
    rw [key_eq, otherKey_eq] at same
    obtain ⟨attr_eq, -⟩ := recordKey_inj enforces isOther isUnique (Option.some.inj same)
    exact nodup.1 (attr_eq ▸ List.mem_map.2 ⟨other, isMember, rfl⟩)

theorem WritesCreate.claimsRecords (enforces : entity.Enforces) {options : CreateOptions}
    (created : entity.WritesCreate draw attributes options put claims) :
    entity.ClaimsRecords put.item claims := by
  have claimsEach : List.Forall₂ (fun unique operation => unique ∈ entity.uniques ∧ ∃ value text,
      put.item.present? unique.attr = some value ∧ value.keyText? = some text ∧
      entity.claim (entity.recordKey unique.attr text) = .ok operation) entity.uniques claims := by
    refine ((List.forall₂_and_left _ _).2 ⟨fun _ isMember => isMember, created.claimsEach⟩).imp ?_
    rintro unique operation ⟨isMember, value, record, holds, resolved, claimed⟩
    obtain ⟨found, text, found_eq, text_eq, rfl⟩ := (resolve_unique enforces isMember).1 resolved
    exact ⟨isMember, found, text, found_eq, text_eq, claimed⟩
  have isUnique : ∀ unique ∈ entity.uniques, unique.attr ∈ entity.uniqueNames :=
    fun unique isMember => List.mem_map.2 ⟨unique, isMember, rfl⟩
  constructor
  case each =>
    intro operation isOperation
    obtain ⟨unique, -, isMember, value, text, holds, text_eq, claimed⟩ :=
      exists_of_forall₂ claimsEach isOperation
    exact ⟨_, (hasRecord_iff enforces).2
      ⟨unique.attr, isUnique unique isMember, value, text, holds, text_eq, rfl⟩,
      claimed, key?_of_claim enforces claimed⟩
  case all =>
    intro record hasRecord
    obtain ⟨attr, isName, value, text, holds, text_eq, rfl⟩ := (hasRecord_iff enforces).1 hasRecord
    obtain ⟨unique, isMember, rfl⟩ := List.mem_map.1 isName
    obtain ⟨operation, isOperation, -, found, foundText, found_eq, foundText_eq, claimed⟩ :=
      exists_of_forall₂ claimsEach.flip isMember
    rw [holds] at found_eq
    obtain rfl := Option.some.inj found_eq
    rw [text_eq] at foundText_eq
    obtain rfl := Option.some.inj foundText_eq
    exact ⟨operation, isOperation, claimed, key?_of_claim enforces claimed⟩
  case nodup =>
    refine nodup_keys_of_claims enforces (claimsEach.imp ?_) (List.Nodup.of_map _ enforces.apart)
    rintro unique operation ⟨isMember, value, text, -, -, claimed⟩
    exact ⟨isUnique unique isMember, text, key?_of_claim enforces claimed⟩

end Create

section Overwrite

variable {draw : String → Moment} {attributes : Item} {put : PutRequest}
  {claims : List WriteOperation} {service : Service} {rows : Rows}

/-- What a create that may overwrite needs and what it does. -/
structure Overwrites (entity : Entity) (item key : Item) (rows after : Rows) : Prop where
  vacant : ∀ record, entity.HasRecord item record → rows record = none
  stored : after key = some item
  claimed : ∀ record, entity.HasRecord item record → (after record).isSome
  others : ∀ other, other ≠ key → ¬ entity.HasRecord item other → after other = rows other

section Transact

variable (created : entity.WritesCreate draw attributes { overwrite := true } put claims)
  {key : Item} (isKey : entity.table.keyOf? put.item = some key)
include created isKey

/-- The put of the item is always possible. -/
theorem plan_overwrite :
    service.plan entity.table rows (.put put) = some (key, some put.item) := by
  obtain ⟨condition_eq, -⟩ := Prod.mk.inj (Except.ok.inj created.condition)
  simp [Service.plan, isKey, created.table, ← condition_eq, Service.meets]

variable (enforces : entity.Enforces) (placed : rows.Placed entity.table)
include enforces placed

theorem overwrites_of_transact {after : Rows}
    (transacted : service.transact entity.table rows (.put put :: claims) = some after) :
    entity.Overwrites put.item key rows after := by
  obtain ⟨each, untouched⟩ := Service.transact_each transacted
  have claimsRecords := created.claimsRecords enforces
  constructor
  case vacant =>
    intro record hasRecord
    obtain ⟨operation, isOperation, claimed, -⟩ := claimsRecords.all record hasRecord
    obtain ⟨plan, isPlan, -⟩ := each operation (List.mem_cons_of_mem _ isOperation)
    exact (plan_claim_iff enforces placed hasRecord.isRecord claimed).1 ⟨plan, isPlan⟩
  case stored =>
    obtain ⟨plan, isPlan, after_eq⟩ := each _ List.mem_cons_self
    rw [plan_overwrite created isKey] at isPlan
    obtain rfl := Option.some.inj isPlan
    exact after_eq
  case claimed =>
    intro record hasRecord
    obtain ⟨operation, isOperation, claimed, key_eq⟩ := claimsRecords.all record hasRecord
    obtain ⟨plan, isPlan, after_eq⟩ := each operation (List.mem_cons_of_mem _ isOperation)
    rw [Service.key?_of_plan isPlan] at key_eq
    obtain rfl := Option.some.inj key_eq
    obtain ⟨request, rfl, -, -⟩ := put_of_claim claimed
    obtain ⟨-, row_eq, -⟩ := Service.plan_put isPlan
    rw [after_eq, row_eq]
    rfl
  case others =>
    intro other differs notRecord
    apply untouched
    intro operation isOperation isOther
    rcases List.mem_cons.1 isOperation with rfl | isClaim
    · rw [WriteOperation.key?, isKey] at isOther
      exact differs (Option.some.inj isOther).symm
    · obtain ⟨record, hasRecord, -, key_eq⟩ := claimsRecords.each operation isClaim
      rw [key_eq] at isOther
      exact notRecord (Option.some.inj isOther ▸ hasRecord)

theorem exists_transact_of_vacant (live : entity.Live key)
    (vacant : ∀ record, entity.HasRecord put.item record → rows record = none) :
    ∃ after, service.transact entity.table rows (.put put :: claims) = some after := by
  have claimsRecords := created.claimsRecords enforces
  apply Service.exists_transact
  · intro operation isOperation
    rcases List.mem_cons.1 isOperation with rfl | isClaim
    · exact ⟨_, plan_overwrite created isKey⟩
    · obtain ⟨record, hasRecord, claimed, -⟩ := claimsRecords.each operation isClaim
      exact (plan_claim_iff enforces placed hasRecord.isRecord claimed).2 (vacant record hasRecord)
  · rw [List.map_cons, List.nodup_cons]
    refine ⟨?_, claimsRecords.nodup⟩
    intro isClaimed
    obtain ⟨operation, isOperation, same⟩ := List.mem_map.1 isClaimed
    obtain ⟨record, hasRecord, -, key_eq⟩ := claimsRecords.each operation isOperation
    rw [key_eq, WriteOperation.key?, isKey] at same
    exact hasRecord.ne_live live (Option.some.inj same).symm

end Transact

def Unrecorded (entity : Entity) (rows : Rows) (key : Item) : Prop :=
  ∀ item record, rows key = some item → ¬ entity.HasRecord item record

/-- Records are free if no item has them. -/
theorem vacant_iff (accounted : entity.Accounted rows) {item : Item} :
    (∀ record, entity.HasRecord item record → rows record = none) ↔
      ∀ other otherItem record, entity.Live other → rows other = some otherItem →
        entity.HasRecord item record → ¬ entity.HasRecord otherItem record := by
  constructor
  · intro vacant other otherItem record live row hasRecord otherHas
    have isStored := (accounted.records record hasRecord.isRecord).2
      ⟨other, otherItem, live, row, otherHas⟩
    rw [vacant record hasRecord] at isStored
    cases isStored
  · intro free record hasRecord
    rw [← Option.not_isSome_iff_eq_none, accounted.records record hasRecord.isRecord]
    rintro ⟨other, otherItem, live, row, otherHas⟩
    exact free other otherItem record live row hasRecord otherHas

theorem exists_transact_iff (accounted : entity.Accounted rows) (enforces : entity.Enforces)
    (placed : rows.Placed entity.table)
    (created : entity.WritesCreate draw attributes { overwrite := true } put claims) {key : Item}
    (isKey : entity.table.keyOf? put.item = some key) (live : entity.Live key) :
    (∃ after, service.transact entity.table rows (.put put :: claims) = some after) ↔
      ∀ other item record, entity.Live other → rows other = some item →
        entity.HasRecord put.item record → ¬ entity.HasRecord item record := by
  rw [← vacant_iff accounted]
  constructor
  · rintro ⟨after, transacted⟩
    exact (overwrites_of_transact created isKey enforces placed transacted).vacant
  · exact exists_transact_of_vacant created isKey enforces placed live

section Accounts

variable {item key : Item} {after : Rows} (accounted : entity.Accounted rows)
  (overwrites : entity.Overwrites item key rows after)
include accounted overwrites

/-- Who has a record afterwards is the item that is written, or had it before. -/
theorem holder_cases {other otherItem record : Item} (otherLive : entity.Live other)
    (row : after other = some otherItem) (otherHas : entity.HasRecord otherItem record) :
    other = key ∧ entity.HasRecord item record ∨
      other ≠ key ∧ rows other = some otherItem ∧ ¬ entity.HasRecord item record := by
  by_cases same : other = key
  · rw [same, overwrites.stored] at row
    exact .inl ⟨same, Option.some.inj row ▸ otherHas⟩
  · rw [overwrites.others other same fun isRecord => otherLive isRecord.isRecord] at row
    exact .inr ⟨same, row, fun isClaimed =>
      (vacant_iff accounted).1 overwrites.vacant other otherItem record otherLive row isClaimed otherHas⟩

variable (live : entity.Live key)
include live

theorem unrecorded_of_accounted (stillAccounted : entity.Accounted after) :
    entity.Unrecorded rows key := by
  intro old record row hasRecord
  have wasStored : (rows record).isSome :=
    (accounted.records record hasRecord.isRecord).2 ⟨key, old, live, row, hasRecord⟩
  have notClaimed : ¬ entity.HasRecord item record := fun isClaimed =>
    (vacant_iff accounted).1 overwrites.vacant key old record live row isClaimed hasRecord
  -- the record stays, and so somebody else must have it
  rw [← overwrites.others record (hasRecord.ne_live live).symm notClaimed] at wasStored
  obtain ⟨other, otherItem, otherLive, otherRow, otherHas⟩ :=
    (stillAccounted.records record hasRecord.isRecord).1 wasStored
  rcases holder_cases accounted overwrites otherLive otherRow otherHas with
    ⟨-, isClaimed⟩ | ⟨differs, otherRow, -⟩
  · exact notClaimed isClaimed
  · exact differs (accounted.alone other key otherItem old record otherLive live otherRow row otherHas
      hasRecord)

theorem accounted_of_unrecorded (unrecorded : entity.Unrecorded rows key) :
    entity.Accounted after := by
  constructor
  case records =>
    intro record isRecord
    by_cases isClaimed : entity.HasRecord item record
    · exact iff_of_true (overwrites.claimed record isClaimed)
        ⟨key, item, live, overwrites.stored, isClaimed⟩
    · have differs : record ≠ key := by
        rintro rfl
        exact live isRecord
      rw [overwrites.others record differs isClaimed, accounted.records record isRecord]
      constructor
      · rintro ⟨other, otherItem, otherLive, row, otherHas⟩
        have otherDiffers : other ≠ key := by
          rintro rfl
          exact unrecorded otherItem record row otherHas
        have kept := overwrites.others other otherDiffers fun isRecord => otherLive isRecord.isRecord
        exact ⟨other, otherItem, otherLive, by rw [kept, row], otherHas⟩
      · rintro ⟨other, otherItem, otherLive, row, otherHas⟩
        rcases holder_cases accounted overwrites otherLive row otherHas with
          ⟨-, hasRecord⟩ | ⟨-, row, -⟩
        · exact absurd hasRecord isClaimed
        · exact ⟨other, otherItem, otherLive, row, otherHas⟩
  case alone =>
    intro first second firstItem secondItem record firstLive secondLive firstRow secondRow firstHas
      secondHas
    -- a holder of the record is the new item, or it held the record before and nobody claimed it
    rcases holder_cases accounted overwrites firstLive firstRow firstHas with
      ⟨rfl, isClaimed⟩ | ⟨-, firstRow, notClaimed⟩ <;>
    rcases holder_cases accounted overwrites secondLive secondRow secondHas with
      ⟨rfl, isClaimed'⟩ | ⟨-, secondRow, notClaimed'⟩
    · rfl
    · exact absurd isClaimed notClaimed'
    · exact absurd isClaimed' notClaimed
    · exact accounted.alone first second firstItem secondItem record firstLive secondLive firstRow
        secondRow firstHas secondHas

end Accounts

section Run

variable {α : Type} [Storable α] {connection : Connection} {typeName : String} {value : α}
  {options : CreateOptions} {answer : α}
  (registered : connection.entity typeName = .ok entity)
  (isItem : Storable.toItem value = .ok attributes)
  (created : entity.createOperations draw attributes options = .ok (put, claims))
  (fits : claims.length < connection.config.maxTransactionItems)
  (answers : entity.readValue connection.engine put.item = .ok answer)
  (willing : ∀ call, service.refuses call = none)
include registered isItem created fits answers willing

/-- A create is carried out as one transaction, or nothing is. -/
theorem run_create_cases :
    (∃ after, service.transact entity.table rows (.put put :: claims) = some after ∧
      (connection.create draw typeName value options).run.run (service.store entity.table) rows =
        (.ok answer, after)) ∨
    service.transact entity.table rows (.put put :: claims) = none ∧
      ∃ error,
        (connection.create draw typeName value options).run.run (service.store entity.table) rows =
          (.error error, rows) := by
  have converted := ConversionError.lift_eq_ok.2 isItem
  unfold Connection.create
  simp only [registered, converted, Operation.lift_ok_bind, created]
  rw [answers]
  cases claims with
  | nil =>
    simp only [List.isEmpty_nil, if_true]
    rcases Service.writesAs_put willing put rows with ⟨after, log, transacted, written⟩ |
      ⟨refused, error, log, failed⟩
    · exact .inl ⟨after, transacted, (written.bind (Operation.yields_ofExcept (.ok answer))).2⟩
    · exact .inr ⟨refused, error, failed.bind_error.2⟩
  | cons claim claims =>
    have fits : (WriteOperation.put put :: claim :: claims).length ≤
      connection.config.maxTransactionItems := fits
    simp only [List.isEmpty_cons, Bool.false_eq_true, if_false]
    rw [Connection.executeWrites_direct fits]
    rcases Service.writesAs_submit willing (.put put) (claim :: claims) rows with
      ⟨after, log, transacted, written⟩ | ⟨refused, error, log, failed⟩
    · exact .inl ⟨after, transacted, (written.bind (Operation.yields_ofExcept (.ok answer))).2⟩
    · exact .inr ⟨refused, error, failed.bind_error.2⟩

end Run

/-- A create that may overwrite keeps the records of the items if the item that it replaces has none,
and only then, as long as no other item has a record of a value that is written.  If the replaced item
holds one of these values itself the create fails, and if it succeeds the records of the replaced item
are left over. -/
theorem replaces_iff {α : Type} [Storable α] {declaration : Declaration} {defaultTable : Option Table}
    (compiled : declaration.compile defaultTable = .ok entity) (wellNamed : entity.WellNamed)
    (derives : declaration.DerivesRecords) (plainlyNamed : declaration.PlainlyNamed)
    (startsApart : declaration.key.partition.StartsApart) {connection : Connection}
    {typeName : String} (registered : connection.entity typeName = .ok entity)
    (willing : ∀ call, service.refuses call = none) (placed : rows.Placed entity.table)
    (accounted : entity.Accounted rows) {value : α}
    (isItem : Storable.toItem value = .ok attributes)
    (created : entity.createOperations draw attributes { overwrite := true } = .ok (put, claims))
    (fits : claims.length < connection.config.maxTransactionItems) {answer : α}
    (answers : entity.readValue connection.engine put.item = .ok answer)
    {result : Except Error α} {after : Rows}
    (run : (connection.create draw typeName value { overwrite := true }).run.run
      (service.store entity.table) rows = (result, after)) :
    ∃ key, entity.Live key ∧ entity.table.keyOf? put.item = some key ∧
      ((∀ other item record, entity.Live other → other ≠ key → rows other = some item →
          entity.HasRecord put.item record → ¬ entity.HasRecord item record) →
        (result = .ok answer ∧ entity.Accounted after ↔ entity.Unrecorded rows key)) ∧
      (result = .ok answer ↔ ∀ other item record, entity.Live other → rows other = some item →
        entity.HasRecord put.item record → ¬ entity.HasRecord item record) ∧
      (result = .ok answer → (entity.Accounted after ↔ entity.Unrecorded rows key)) ∧
      (result ≠ .ok answer → after = rows) := by
  have enforces := enforces_of_compile compiled wellNamed derives plainlyNamed
  have partition_eq := (Declaration.keyOn_eq_ok (Declaration.laysOut_of_compile compiled).key).1
  have keysApart : entity.KeysApart :=
    keysApart_of_startsApart enforces (by rwa [partition_eq])
  have writes := createOperations_eq_ok created
  obtain ⟨key, isPrimary, isKey⟩ := keyOf?_toPhysical enforces writes.item
  have live : entity.Live key := keysApart _ _ isPrimary
  have succeeds_iff : (∃ other, service.transact entity.table rows (.put put :: claims) = some other) ↔
      _ := exists_transact_iff accounted enforces placed writes isKey live
  refine ⟨key, live, isKey, ?_⟩
  rcases run_create_cases registered isItem created fits answers willing with
    ⟨other, transacted, run_eq⟩ | ⟨notTransacted, error, run_eq⟩
  · obtain ⟨rfl, rfl⟩ := Prod.mk.inj (run.symm.trans run_eq)
    have succeeds := succeeds_iff.1 ⟨_, transacted⟩
    have overwrites := overwrites_of_transact writes isKey enforces placed transacted
    have accounted_iff : entity.Accounted after ↔ entity.Unrecorded rows key :=
      ⟨unrecorded_of_accounted accounted overwrites live,
        accounted_of_unrecorded accounted overwrites live⟩
    exact ⟨fun _ => by simpa using accounted_iff, iff_of_true rfl succeeds, fun _ => accounted_iff,
      fun fails => absurd rfl fails⟩
  · obtain ⟨rfl, rfl⟩ := Prod.mk.inj (run.symm.trans run_eq)
    have fails : ¬ ∀ other item record, entity.Live other → after other = some item →
        entity.HasRecord put.item record → ¬ entity.HasRecord item record := by
      intro free
      obtain ⟨other, transacted⟩ := succeeds_iff.2 free
      rw [notTransacted] at transacted
      cases transacted
    refine ⟨fun apart => ?_, iff_of_false (by simp) fails, by simp, fun _ => rfl⟩
    refine iff_of_false (by simp) fun unrecorded => fails ?_
    intro other item record otherLive row hasRecord
    by_cases same : other = key
    · subst same
      exact unrecorded item record row
    · exact apart other item record otherLive same row hasRecord

end Overwrite

end Entity

/-! ## A user who is created again -/

def replacingUser (email : String) : Document :=
  .object [("NICK", .string "ann"), ("email", .string email), ("id", .string "1")]

def rowsOfUser : Rows :=
  Job.runAll default usersTable (userConnection "USER") "User" [newUser "1" "ann" "a@x"]

def replacingOperations (email : String) : Except Error (PutRequest × List WriteOperation) :=
  (userEntity "USER").createOperations (fun _ => ⟨0, fun _ => 0⟩)
    (.ofList [("NICK", .string "ann"), ("email", .string email), ("id", .string "1")])
    { overwrite := true }

def replaceRun (email : String) : Except Error Document × Rows :=
  ((userConnection "USER").create (fun _ => ⟨0, fun _ => 0⟩) "User" (replacingUser email)
    { overwrite := true }).run.run (Service.store default usersTable) rowsOfUser

/-- Neither with the same email nor with another one is the user replaced in good order. -/
theorem not_replaced_user :
    (userEntity "USER").Accounted rowsOfUser ∧
      ∀ email ∈ ["a@x", "b@x"], ∃ put claims answer, replacingOperations email = .ok (put, claims) ∧
        (userEntity "USER").toDocument put.item = .ok answer ∧
        ¬ ((replaceRun email).1 = .ok answer ∧ (userEntity "USER").Accounted (replaceRun email).2) := by
  have sequential : (userEntity "USER").Sequential Document (userConnection "USER") "User" rowsOfUser := by
    apply Job.sequential_runAll
    intro job isJob
    obtain rfl := List.mem_singleton.1 isJob
    exact proper_newUser _ _ _ _
  have ordered := sequential.ordered enforces_users
    (Entity.keysApart_of_startsApart enforces_users (startsApart_userDeclaration "USER")) rfl
  have accounted := (Entity.accounted_iff_mirrored enforces_users ordered.textual).2 ordered.mirrored
  have holds : rowsOfUser.held (.single "PK" (.string "USER#1")) "email" = some (.string "a@x") := by
    decide +kernel
  obtain ⟨old, row, oldHolds⟩ := Option.bind_eq_some_iff.1 holds
  have isUnique : "email" ∈ (userEntity "USER").uniqueNames := by simp [uniqueNames_userEntity]
  have hasRecord : (userEntity "USER").HasRecord old ((userEntity "USER").recordKey "email" "a@x") :=
    ⟨"email", isUnique, _, oldHolds, Entity.uniqueRecord_string enforces_users isUnique "a@x"⟩
  have writes : ∀ email ∈ ["a@x", "b@x"], (replacingOperations email).toOption.any (fun created =>
      created.2.length < 100 ∧
      usersTable.keyOf? created.1.item = some (.single "PK" (.string "USER#1")) ∧
      ((userEntity "USER").toDocument created.1.item).isOk) = true := by
    decide +kernel
  refine ⟨accounted, ?_⟩
  intro email isEmail
  have writes := writes email isEmail
  cases created : replacingOperations email with
  | error error => simp [created, Except.toOption] at writes
  | ok operations =>
    obtain ⟨put, claims⟩ := operations
    simp only [created, Except.toOption, Option.any_some, decide_eq_true_eq] at writes
    obtain ⟨fits, isUser, isAnswered⟩ := writes
    cases answers : (userEntity "USER").toDocument put.item with
    | error error => simp [answers, Except.isOk, Except.toBool] at isAnswered
    | ok answer =>
      refine ⟨put, claims, answer, rfl, answers, ?_⟩
      rintro ⟨replaced, stillAccounted⟩
      have registered : (userConnection "USER").entity "User" = .ok (userEntity "USER") := rfl
      have willing : ∀ call, Service.refuses default call = none := fun _ => rfl
      have isItem : Item.ofDocument (replacingUser email) = .ok
          (.ofList [("NICK", .string "ann"), ("email", .string email), ("id", .string "1")]) := rfl
      obtain ⟨key, -, isKey, -, -, accounted_iff, -⟩ := Entity.replaces_iff compile_users wellNamed_users
        (derives_userDeclaration _) plainlyNamed_users (startsApart_userDeclaration _) registered
        willing ordered.placed accounted isItem created fits answers rfl
      obtain rfl : Item.single "PK" (.string "USER#1") = key :=
        Option.some.inj (isUser.symm.trans isKey)
      exact (accounted_iff replaced).1 stillAccounted old _ row hasRecord

end SingleTable
