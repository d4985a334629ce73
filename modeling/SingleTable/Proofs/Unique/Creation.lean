import SingleTable.Proofs.Unique.Submission

/-!
# The transfer of a create

A create moves every unique attribute from nothing to its value: it is a put that fails if there
is an item with the key, together with a claim of each value.
-/

namespace SingleTable

open Grammar

namespace Entity

variable {entity : Entity}

/-- No key of an item of the entity is that of a record. -/
def KeysApart (entity : Entity) : Prop :=
  ∀ attributes key, entity.primaryKey attributes = .ok key → entity.Live key

def TextualItem (entity : Entity) (item : Option Item) : Prop :=
  ∀ attr ∈ entity.uniqueNames, ∀ value, item.bind (·.present? attr) = some value →
    ∃ text, value = .string text

theorem Textual.item {rows : Rows} (textual : entity.Textual rows) {key : Item}
    (live : entity.Live key) : entity.TextualItem (rows key) :=
  fun attr isUnique value holds => textual attr isUnique key value live holds

/-! ## Create -/

/-- The key of a new item is the primary key of the attributes it stores. -/
theorem keyOf?_toPhysical (enforces : entity.Enforces) {draw : String → Moment}
    {attributes item : Item} (isItem : entity.toPhysical draw attributes = .ok item) :
    ∃ key, entity.primaryKey (entity.applyDefaults draw attributes) = .ok key ∧
      entity.table.keyOf? item = some key := by
  obtain ⟨key, indexed, isKey, isIndexed, rfl⟩ := toPhysical_eq_ok isItem
  obtain ⟨values, values_eq, key_eq⟩ := Key.resolve_eq_ok isKey
  have names_eq := KeyPart.names_of_resolveAll values_eq
  rw [enforces.keyed] at names_eq
  have complete : ∀ name ∈ entity.table.keyAttributes, key.contains name = true := by
    intro name isName
    rw [← names_eq] at isName
    obtain ⟨⟨_, value⟩, isEntry, rfl⟩ := List.mem_map.1 isName
    have nodup : (values.map Prod.fst).Nodup := by
      rw [names_eq, ← enforces.keyed]
      have nodup := enforces.wellNamed.nodup_physical
      rw [physicalAttributes_eq] at nodup
      exact (List.nodup_append.1 nodup).1
    rw [key_eq, NameMap.contains, NameMap.ofList, NameMap.get?_insertAll_of_mem nodup isEntry,
      Option.isSome_some]
  refine ⟨key, isKey, Table.keyOf?_eq_some ?_ complete ?_⟩
  · intro name isName
    have isPhysical := keyAttributes_subset enforces isName
    have notIndex : name ∉ entity.indexAttributes := by
      have nodup := enforces.wellNamed.nodup_physical
      rw [physicalAttributes_eq, enforces.keyed] at nodup
      exact fun isIndex => (List.nodup_append.1 nodup).2.2 _ isName _ isIndex rfl
    rw [NameMap.get?_insert_of_ne _ _ (enforces.wellNamed.marker_ne_physical isPhysical),
      get?_addIndexes_of_not_mem isIndexed notIndex, NameMap.get?_union]
    obtain ⟨value, value_eq⟩ := Option.isSome_iff_exists.1 (complete name isName)
    rw [value_eq, Option.some_or]
  · intro name notName
    rw [← enforces.keyed] at notName
    exact Key.get?_resolve_of_not_mem isKey notName

/-- The records of an item are those of the texts that its unique attributes hold. -/
theorem uniqueRecords_eq_ok (enforces : entity.Enforces) {item : Item}
    (textual : entity.TextualItem (some item)) {records : List (String × Item)}
    (areRecords : entity.uniqueRecords item = .ok records) :
    List.Forall₂ (fun unique record => ∃ text, item.present? unique.attr = some (.string text) ∧
      record.2 = entity.recordKey unique.attr text) entity.uniques records := by
  have each := (List.forall₂_and_left _ _).2 ⟨fun unique isMember => isMember, forall₂_of_mapM areRecords⟩
  refine each.imp ?_
  rintro unique record ⟨isMember, isRecord⟩
  split at isRecord
  · cases isRecord
  · next value isPresent =>
    obtain ⟨text, rfl⟩ := textual unique.attr (List.mem_map.2 ⟨unique, isMember, rfl⟩) value isPresent
    obtain ⟨resolved, isResolved, answer⟩ := bind_eq_ok.1 isRecord
    obtain rfl := Except.ok.inj answer
    obtain ⟨found, foundText, found_eq, text_eq, resolved_eq⟩ :=
      (resolve_unique enforces isMember).1 isResolved
    rw [isPresent] at found_eq
    obtain rfl := Option.some.inj found_eq
    obtain rfl := Option.some.inj text_eq
    exact ⟨text, isPresent, resolved_eq⟩

/-- Unless it may overwrite, the put of a create needs a free key. -/
theorem WritesCreate.needsVacancy {draw : String → Moment} {attributes : Item}
    {options : CreateOptions} {put : PutRequest} {claims : List WriteOperation}
    (created : entity.WritesCreate draw attributes options put claims)
    (areWords : ∀ name ∈ entity.table.keyAttributes, IsWord name) (guarded : options.overwrite = false)
    (plain : ∀ condition ∈ options.condition, ∀ path ∈ condition.paths, Path.IsPlain path) :
    put.NeedsVacancy entity := by
  have isCondition := created.condition
  rw [createCondition, guarded] at isCondition
  exact fun service found meets => vacant_of_meets areWords plain isCondition meets

def createTransfer (key item : Item) : Transfer where
  key := key
  move := fun attr => some (none, item.present? attr)

theorem submits_create (enforces : entity.Enforces) (keysApart : entity.KeysApart)
    {draw : String → Moment} {attributes : Item} {options : CreateOptions} {put : PutRequest}
    {claims : List WriteOperation}
    (created : entity.WritesCreate draw attributes options put claims)
    (textual : entity.TextualItem (some put.item)) :
    ∃ key, (createTransfer key put.item).Submits entity (.put put) (.put put :: claims) := by
  obtain ⟨key, isPrimary, isKey⟩ := keyOf?_toPhysical enforces created.item
  obtain ⟨records, areRecords, areClaims⟩ := created.claims
  have recorded := uniqueRecords_eq_ok enforces textual areRecords
  refine ⟨key, ?_⟩
  constructor
  · simp
  · exact isKey
  · exact keysApart _ _ isPrimary
  · intro attr isUnique old value move_eq
    obtain ⟨-, holds⟩ := Prod.mk.inj (Option.some.inj move_eq)
    exact textual attr isUnique value holds
  · intro operation isOperation
    rcases List.mem_cons.1 isOperation with isMain | isClaim
    · exact .inl isMain
    · obtain ⟨record, isRecord, claimed⟩ := exists_of_forall₂ areClaims isClaim
      obtain ⟨unique, isMember, text, holds, key_eq⟩ := exists_of_forall₂ recorded isRecord
      refine .inr (.inl ⟨unique.attr, List.mem_map.2 ⟨unique, isMember, rfl⟩, text, ?_, ?_⟩)
      · exact ⟨none, by simp [createTransfer, holds], by simp⟩
      · rwa [← key_eq]
  · rintro attr isUnique text ⟨old, move_eq, -⟩
    obtain ⟨-, holds⟩ := Prod.mk.inj (Option.some.inj move_eq)
    obtain ⟨unique, isMember, rfl⟩ := List.mem_map.1 isUnique
    obtain ⟨record, isRecord, found, found_eq, key_eq⟩ := exists_of_forall₂ recorded.flip isMember
    obtain ⟨operation, isClaim, claimed⟩ := exists_of_forall₂ areClaims.flip isRecord
    rw [holds] at found_eq
    obtain rfl := Value.string.inj (Option.some.inj found_eq)
    exact ⟨operation, by simp [isClaim], by rwa [← key_eq]⟩
  · rintro attr - text ⟨new, move_eq, -⟩
    cases (Prod.mk.inj (Option.some.inj move_eq)).1

/-- A put leaves its item, as the transfer says. -/
theorem fits_create {key : Item} {put : PutRequest} {rows : Rows} {service : Service}
    {row : Option Item} (isPlan : service.plan entity.table rows (.put put) = some (key, row)) :
    (createTransfer key put.item).Fits entity rows row := by
  obtain ⟨-, row_eq, -⟩ := Service.plan_put isPlan
  obtain rfl : row = some put.item := row_eq
  intro attr _
  constructor
  · intro old new move_eq
    exact (Prod.mk.inj (Option.some.inj move_eq)).2
  · intro unmoved
    cases unmoved

/-- Where there is no item, no attribute holds anything. -/
theorem expects_create {key item : Item} {rows : Rows} (isVacant : rows key = none) :
    (createTransfer key item).Expects entity rows := by
  intro attr _ old new move_eq
  obtain ⟨rfl, -⟩ := Prod.mk.inj (Option.some.inj move_eq)
  have isVacant : rows (createTransfer key item).key = none := isVacant
  rw [Rows.held, isVacant, Option.bind_none]

end Entity

end SingleTable
