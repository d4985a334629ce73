import SingleTable.Proofs.Entity.Layout

/-!
# The item of an entity

An item that is created stores every declared attribute as it is after defaults were filled in,
the key that the primary templates give, and for every index either all its parts or, if the
index is sparse, none.
-/

namespace SingleTable

/-! ## Keys -/

theorem Key.resolve_eq_ok {key : Key} {attributes item : Item}
    (resolved : key.resolve attributes = .ok item) :
    ∃ values, KeyPart.resolveAll .strict attributes key.parts = .ok values ∧
      item = NameMap.ofList values := by
  unfold resolve at resolved
  split at resolved
  · next values values_eq => exact ⟨values, values_eq, (Except.ok.inj resolved).symm⟩
  · cases resolved

theorem KeyPart.names_of_resolveAll {mode : Completeness} {attributes : Item}
    {parts : List KeyPart} {values : List (String × Value)}
    (resolved : resolveAll mode attributes parts = .ok values) :
    values.map Prod.fst = parts.map (·.attr) := by
  have related := forall₂_of_resolveAll resolved
  clear resolved
  induction related with
  | nil => rfl
  | cons isRelated _ inductionHypothesis =>
    rw [List.map_cons, List.map_cons, inductionHypothesis, isRelated.1]

theorem Key.get?_resolve_of_not_mem {key : Key} {attributes item : Item}
    (resolved : key.resolve attributes = .ok item) {name : String}
    (absent : name ∉ key.parts.map (·.attr)) : item.get? name = none := by
  obtain ⟨values, values_eq, rfl⟩ := Key.resolve_eq_ok resolved
  rw [NameMap.ofList, NameMap.get?_insertAll_of_not_mem, NameMap.get?_empty]
  rwa [KeyPart.names_of_resolveAll values_eq]

/-- Every part of a key has its own value there. -/
theorem KeyPart.exists_of_resolveAll {mode : Completeness} {attributes : Item}
    {parts : List KeyPart} {values : List (String × Value)}
    (resolved : resolveAll mode attributes parts = .ok values) {part : KeyPart}
    (isPart : part ∈ parts) :
    ∃ value, part.template.interpolate mode attributes = .ok value ∧ (part.attr, value) ∈ values := by
  obtain ⟨entry, isEntry, attr_eq, isValue⟩ :=
    exists_of_forall₂ (forall₂_of_resolveAll resolved).flip isPart
  exact ⟨entry.2, isValue, attr_eq ▸ isEntry⟩

theorem Key.get?_resolve_of_mem {key : Key} {attributes item : Item}
    (nodup : (key.parts.map (·.attr)).Nodup) (resolved : key.resolve attributes = .ok item)
    {part : KeyPart} (isPart : part ∈ key.parts) :
    ∃ value, part.template.interpolate .strict attributes = .ok value ∧
      item.get? part.attr = some value := by
  obtain ⟨values, values_eq, rfl⟩ := Key.resolve_eq_ok resolved
  obtain ⟨value, isValue, isEntry⟩ := KeyPart.exists_of_resolveAll values_eq isPart
  have nodupValues : (values.map Prod.fst).Nodup := by
    rwa [KeyPart.names_of_resolveAll values_eq]
  exact ⟨value, isValue, NameMap.get?_insertAll_of_mem nodupValues isEntry⟩

namespace Entity

/-! ## Defaults -/

theorem get?_fillAll_of_not_mem {draw : String → Moment} {attrs : List Attribute}
    {attributes : Item} {name : String} (absent : name ∉ attrs.map (·.name)) :
    (fillAll draw attrs attributes).get? name = attributes.get? name := by
  induction attrs generalizing attributes with
  | nil => rfl
  | cons attr attrs inductionHypothesis =>
    simp only [List.map_cons, List.mem_cons, not_or] at absent
    unfold fillAll
    split
    · exact inductionHypothesis absent.2
    · split
      · rw [inductionHypothesis absent.2, NameMap.get?_insert_of_ne _ _ (Ne.symm absent.1)]
      · exact inductionHypothesis absent.2

theorem get?_applyDefaults_of_not_mem {entity : Entity} {draw : String → Moment} {attributes : Item}
    {name : String} (absent : name ∉ entity.attributeNames) :
    (entity.applyDefaults draw attributes).get? name = attributes.present? name := by
  rw [applyDefaults, get?_fillAll_of_not_mem absent, NameMap.get?_filter]
  rfl

/-! ## Indexes -/

theorem get?_addIndexes_of_not_mem {attributes : Item} {indexes : List IndexLayout}
    {item result : Item} (added : addIndexes attributes indexes item = .ok result) {name : String}
    (absent : name ∉ (indexes.flatMap (·.parts)).map (·.attr)) :
    result.get? name = item.get? name := by
  induction indexes generalizing item with
  | nil =>
    obtain rfl := Except.ok.inj added
    rfl
  | cons index indexes inductionHypothesis =>
    simp only [List.flatMap_cons, List.map_append, List.mem_append, not_or] at absent
    unfold addIndexes at added
    split at added
    · next values values_eq =>
      rw [inductionHypothesis added absent.2, NameMap.get?_insertAll_of_not_mem]
      rw [KeyPart.names_of_resolveAll values_eq]
      exact absent.1
    · exact inductionHypothesis added absent.2
    · cases added

/-- Every index is either added as a whole or skipped. -/
theorem addIndexes_cases {attributes : Item} {indexes : List IndexLayout} {item result : Item}
    (added : addIndexes attributes indexes item = .ok result)
    (nodup : ((indexes.flatMap (·.parts)).map (·.attr)).Nodup) {index : IndexLayout}
    (isIndex : index ∈ indexes) :
    (∃ values, KeyPart.resolveAll index.mode attributes index.parts = .ok values ∧
        ∀ entry ∈ values, result.get? entry.1 = some entry.2) ∨
      (∃ attr, KeyPart.resolveAll index.mode attributes index.parts = .error (.sparseSkip attr)) ∧
        ∀ part ∈ index.parts, result.get? part.attr = item.get? part.attr := by
  induction indexes generalizing item with
  | nil => cases isIndex
  | cons first indexes inductionHypothesis =>
    simp only [List.flatMap_cons, List.map_append] at nodup
    obtain ⟨nodupFirst, nodupOthers, apart⟩ := List.nodup_append.1 nodup
    have notLater : ∀ {name}, name ∈ first.parts.map (·.attr) →
        name ∉ (indexes.flatMap (·.parts)).map (·.attr) :=
      fun isFirst isLater => apart _ isFirst _ isLater rfl
    unfold addIndexes at added
    rcases List.mem_cons.1 isIndex with rfl | isLater
    · split at added
      · next values values_eq =>
        refine .inl ⟨values, values_eq, ?_⟩
        intro entry isEntry
        have names_eq := KeyPart.names_of_resolveAll values_eq
        have isFirst : entry.1 ∈ index.parts.map (·.attr) := by
          rw [← names_eq]
          exact List.mem_map.2 ⟨entry, isEntry, rfl⟩
        rw [get?_addIndexes_of_not_mem added (notLater isFirst)]
        exact NameMap.get?_insertAll_of_mem (names_eq ▸ nodupFirst) isEntry
      · next attr skipped =>
        refine .inr ⟨⟨attr, skipped⟩, ?_⟩
        intro part isPart
        exact get?_addIndexes_of_not_mem added (notLater (List.mem_map.2 ⟨part, isPart, rfl⟩))
      · cases added
    · have isOther : ∀ part ∈ index.parts,
          part.attr ∈ (indexes.flatMap (·.parts)).map (·.attr) := fun part isPart =>
        List.mem_map.2 ⟨part, List.mem_flatMap.2 ⟨index, isLater, isPart⟩, rfl⟩
      split at added
      · next values values_eq =>
        rcases inductionHypothesis added nodupOthers isLater with added | ⟨skipped, same⟩
        · exact .inl added
        · refine .inr ⟨skipped, ?_⟩
          intro part isPart
          rw [same part isPart, NameMap.get?_insertAll_of_not_mem]
          rw [KeyPart.names_of_resolveAll values_eq]
          exact fun isFirst => notLater isFirst (isOther part isPart)
      · exact inductionHypothesis added nodupOthers isLater
      · cases added

/-! ## The item as a whole -/

def indexAttributes (entity : Entity) : List String :=
  (entity.indexes.flatMap (·.parts)).map (·.attr)

theorem physicalAttributes_eq (entity : Entity) :
    entity.physicalAttributes = entity.key.parts.map (·.attr) ++ entity.indexAttributes := by
  simp [physicalAttributes, parts, indexAttributes]

theorem toPhysical_eq_ok {entity : Entity} {draw : String → Moment} {attributes item : Item}
    (isItem : entity.toPhysical draw attributes = .ok item) :
    ∃ key indexed, entity.primaryKey (entity.applyDefaults draw attributes) = .ok key ∧
      addIndexes (entity.applyDefaults draw attributes) entity.indexes
        ((entity.applyDefaults draw attributes).union key) = .ok indexed ∧
      item = indexed.insert entityMarker (.string entity.name) := by
  obtain ⟨key, isKey, rest⟩ := bind_eq_ok.1 isItem
  obtain ⟨indexed, isIndexed, answer⟩ := bind_eq_ok.1 rest
  exact ⟨key, indexed, isKey, isIndexed, (Except.ok.inj answer).symm⟩

/-- Every item that is written tells its entity. -/
theorem get?_toPhysical_marker {entity : Entity} {draw : String → Moment} {attributes item : Item}
    (isItem : entity.toPhysical draw attributes = .ok item) :
    item.get? entityMarker = some (.string entity.name) := by
  obtain ⟨_, _, -, -, rfl⟩ := toPhysical_eq_ok isItem
  exact NameMap.get?_insert_self _ _ _

/-- Writing adds nothing under other names than those of keys and the marker. -/
theorem get?_toPhysical_of_not_physical {entity : Entity} {draw : String → Moment}
    {attributes item : Item} (isItem : entity.toPhysical draw attributes = .ok item) {name : String}
    (notPhysical : name ∉ entity.physicalAttributes) (notMarker : name ≠ entityMarker) :
    item.get? name = (entity.applyDefaults draw attributes).get? name := by
  obtain ⟨key, indexed, isKey, isIndexed, rfl⟩ := toPhysical_eq_ok isItem
  rw [physicalAttributes_eq, List.mem_append, not_or] at notPhysical
  rw [NameMap.get?_insert_of_ne _ _ notMarker.symm, get?_addIndexes_of_not_mem isIndexed notPhysical.2,
    NameMap.get?_union, Key.get?_resolve_of_not_mem isKey notPhysical.1, Option.none_or]

section Parts

variable {entity : Entity} (nodup : entity.physicalAttributes.Nodup) {draw : String → Moment}
  {attributes item : Item} (isItem : entity.toPhysical draw attributes = .ok item)
include nodup isItem

/-- A part of the primary key has the value of its template, unless the marker takes its place. -/
theorem get?_toPhysical_of_key {part : KeyPart} (isPart : part ∈ entity.key.parts) :
    ∃ value, part.template.interpolate .strict (entity.applyDefaults draw attributes) = .ok value ∧
      (part.attr ≠ entityMarker → item.get? part.attr = some value) := by
  obtain ⟨key, indexed, isKey, isIndexed, rfl⟩ := toPhysical_eq_ok isItem
  rw [physicalAttributes_eq] at nodup
  obtain ⟨nodupKey, -, apart⟩ := List.nodup_append.1 nodup
  have isAttr : part.attr ∈ entity.key.parts.map (·.attr) := List.mem_map.2 ⟨part, isPart, rfl⟩
  have notIndex : part.attr ∉ entity.indexAttributes := fun isIndex => apart _ isAttr _ isIndex rfl
  obtain ⟨value, isValue, value_eq⟩ := Key.get?_resolve_of_mem nodupKey isKey isPart
  refine ⟨value, isValue, fun notMarker => ?_⟩
  rw [NameMap.get?_insert_of_ne _ _ notMarker.symm, get?_addIndexes_of_not_mem isIndexed notIndex,
    NameMap.get?_union, value_eq, Option.some_or]

/-- An index is written as a whole, or it is sparse, some attribute that it is derived from has no
value and what the item has under its parts was there before; the marker apart. -/
theorem toPhysical_index_cases {index : IndexLayout} (isIndex : index ∈ entity.indexes) :
    (∀ part ∈ index.parts, ∃ value,
        part.template.interpolate index.mode (entity.applyDefaults draw attributes) = .ok value ∧
        (part.attr ≠ entityMarker → item.get? part.attr = some value)) ∨
      index.sparse = true ∧
      (∃ name ∈ index.names, (entity.applyDefaults draw attributes).present? name = none) ∧
      ∀ part ∈ index.parts, part.attr ≠ entityMarker →
        item.get? part.attr = (entity.applyDefaults draw attributes).get? part.attr := by
  obtain ⟨key, indexed, isKey, isIndexed, rfl⟩ := toPhysical_eq_ok isItem
  rw [physicalAttributes_eq] at nodup
  obtain ⟨-, nodupIndexes, apart⟩ := List.nodup_append.1 nodup
  rcases addIndexes_cases isIndexed nodupIndexes isIndex with
    ⟨values, resolved, written⟩ | ⟨⟨attr, skipped⟩, unchanged⟩
  · left
    intro part isPart
    obtain ⟨value, isValue, isEntry⟩ := KeyPart.exists_of_resolveAll resolved isPart
    refine ⟨value, isValue, fun notMarker => ?_⟩
    rw [NameMap.get?_insert_of_ne _ _ notMarker.symm]
    exact written _ isEntry
  · right
    obtain ⟨isSparse, ⟨part, isPart, isName⟩, isMissing⟩ := KeyPart.missing_of_resolveAll skipped
    refine ⟨IndexLayout.sparse_of_mode isSparse,
      ⟨attr, IndexLayout.mem_names_of_part isPart isName, isMissing⟩, ?_⟩
    intro part isPart notMarker
    have isIndexAttribute : part.attr ∈ entity.indexAttributes :=
      List.mem_map.2 ⟨part, List.mem_flatMap.2 ⟨index, isIndex, isPart⟩, rfl⟩
    have notKey : part.attr ∉ entity.key.parts.map (·.attr) :=
      fun isKeyAttr => apart _ isKeyAttr _ isIndexAttribute rfl
    rw [NameMap.get?_insert_of_ne _ _ notMarker.symm, unchanged part isPart, NameMap.get?_union,
      Key.get?_resolve_of_not_mem isKey notKey, Option.none_or]

end Parts

theorem get?_toPhysical_of_attribute {entity : Entity} (wellNamed : entity.WellNamed)
    {draw : String → Moment} {attributes item : Item}
    (isItem : entity.toPhysical draw attributes = .ok item) {name : String}
    (isDeclared : name ∈ entity.attributeNames) :
    item.get? name = (entity.applyDefaults draw attributes).get? name :=
  get?_toPhysical_of_not_physical isItem
    (fun isPhysical => wellNamed.physical_ne_attribute isPhysical isDeclared rfl)
    (wellNamed.marker_ne_attribute isDeclared).symm

end Entity

end SingleTable
