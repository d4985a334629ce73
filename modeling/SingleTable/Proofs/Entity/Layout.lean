import SingleTable.Proofs.Expression.Token
import SingleTable.Proofs.Template.Interpolation
import SingleTable.Entity.Writes

/-!
# What a compiled entity promises

A declaration compiles only if its keys fit the table and every name in a template is a declared
attribute of a scalar type.  What later modules ask of names on top of that is `WellNamed`.
-/

namespace SingleTable

open Grammar

/-! ## Outcomes of lists -/

section Lists

variable {ε α β : Type}

theorem forall₂_of_mapM {f : α → Except ε β} {elements : List α} {results : List β}
    (mapped : elements.mapM f = .ok results) :
    List.Forall₂ (fun element result => f element = .ok result) elements results := by
  induction elements generalizing results with
  | nil =>
    obtain rfl := Except.ok.inj mapped
    exact .nil
  | cons element elements inductionHypothesis =>
    rw [List.mapM_cons] at mapped
    obtain ⟨first, isFirst, rest⟩ := bind_eq_ok.1 mapped
    obtain ⟨others, areOthers, answer⟩ := bind_eq_ok.1 rest
    obtain rfl := Except.ok.inj answer
    exact .cons isFirst (inductionHypothesis areOthers)

theorem exists_of_mapM_eq_error {f : α → Except ε β} {elements : List α} {error : ε}
    (failed : elements.mapM f = .error error) : ∃ element ∈ elements, f element = .error error := by
  induction elements with
  | nil => cases failed
  | cons element elements inductionHypothesis =>
    rw [List.mapM_cons] at failed
    rcases bind_eq_error.1 failed with failed | ⟨first, -, rest⟩
    · exact ⟨element, by simp, failed⟩
    · rcases bind_eq_error.1 rest with failed | ⟨others, -, answer⟩
      · obtain ⟨other, isMember, failed⟩ := inductionHypothesis failed
        exact ⟨other, by simp [isMember], failed⟩
      · cases answer

theorem mapM_of_forall₂ {f : α → Except ε β} {elements : List α} {results : List β}
    (each : List.Forall₂ (fun element result => f element = .ok result) elements results) :
    elements.mapM f = .ok results := by
  induction each with
  | nil => rfl
  | cons isFirst _ inductionHypothesis =>
    rw [List.mapM_cons, isFirst, inductionHypothesis]
    rfl

theorem ConversionError.lift_eq_ok {outcome : Except ConversionError α} {result : α} :
    ConversionError.lift outcome = .ok result ↔ outcome = .ok result := by
  cases outcome <;> simp [ConversionError.lift, Except.mapError]

theorem each_of_forM {f : α → Except ε Unit} {elements : List α}
    (passed : elements.forM f = .ok ()) : ∀ element ∈ elements, f element = .ok () := by
  induction elements with
  | nil => simp
  | cons element elements inductionHypothesis =>
    obtain ⟨⟨⟩, isFirst, others⟩ := bind_eq_ok.1 passed
    intro other isMember
    rcases List.mem_cons.1 isMember with rfl | isMember
    · exact isFirst
    · exact inductionHypothesis others other isMember

theorem exists_of_forall₂ {relation : α → β → Prop} {elements : List α} {results : List β}
    (related : List.Forall₂ relation elements results) {result : β} (isMember : result ∈ results) :
    ∃ element ∈ elements, relation element result := by
  induction related with
  | nil => cases isMember
  | cons isRelated _ inductionHypothesis =>
    rcases List.mem_cons.1 isMember with rfl | isMember
    · exact ⟨_, by simp, isRelated⟩
    · obtain ⟨element, isElement, isRelated⟩ := inductionHypothesis isMember
      exact ⟨element, by simp [isElement], isRelated⟩

theorem mapM_fails_iff {f : α → Except ε β} {elements : List α} :
    (∃ error, elements.mapM f = .error error) ↔ ∃ element ∈ elements, ∃ error, f element = .error error := by
  constructor
  · rintro ⟨error, failed⟩
    obtain ⟨element, isMember, failed⟩ := exists_of_mapM_eq_error failed
    exact ⟨element, isMember, error, failed⟩
  · rintro ⟨element, isMember, error, failed⟩
    cases mapped : elements.mapM f with
    | error other => exact ⟨other, rfl⟩
    | ok results =>
      obtain ⟨result, -, isResult⟩ := exists_of_forall₂ (forall₂_of_mapM mapped).flip isMember
      cases failed.symm.trans isResult

theorem forall₂_comp {γ : Type} {first : α → β → Prop} {second : β → γ → Prop} {elements : List α}
    {middles : List β} {results : List γ} (related : List.Forall₂ first elements middles)
    (continued : List.Forall₂ second middles results) :
    List.Forall₂ (fun element result => ∃ middle, first element middle ∧ second middle result)
      elements results := by
  induction related generalizing results with
  | nil =>
    cases continued
    exact .nil
  | cons isFirst _ inductionHypothesis =>
    cases continued with
    | cons isSecond others => exact .cons ⟨_, isFirst, isSecond⟩ (inductionHypothesis others)

/-- The first element with a key is the only one. -/
theorem find?_of_nodup {key : α → String} {elements : List α} (nodup : (elements.map key).Nodup)
    {element : α} (isMember : element ∈ elements) :
    elements.find? (fun other => key other = key element) = some element := by
  induction elements with
  | nil => cases isMember
  | cons first elements inductionHypothesis =>
    rw [List.map_cons, List.nodup_cons] at nodup
    rcases List.mem_cons.1 isMember with rfl | isMember
    · simp
    · have differs : key first ≠ key element := by
        intro same
        exact nodup.1 (same ▸ List.mem_map.2 ⟨element, isMember, rfl⟩)
      rw [List.find?_cons_of_neg (by simpa using differs)]
      exact inductionHypothesis nodup.2 isMember

end Lists

/-! ## Names -/

namespace IndexLayout

variable {index : IndexLayout}

def names (index : IndexLayout) : List String := index.parts.flatMap (·.names)

/-- The names that the parts refer to, part by part. -/
theorem map_snd_references (index : IndexLayout) :
    (index.parts.flatMap fun part => part.names.map fun name => (part, name)).map Prod.snd =
      index.names := by
  simp [List.map_flatMap, names, Function.comp_def]

theorem mem_names_of_part {part : KeyPart} (isPart : part ∈ index.parts) {name : String}
    (isName : name ∈ part.names) : name ∈ index.names :=
  List.mem_flatMap.2 ⟨part, isPart, isName⟩

/-- Only a sparse index may be left out. -/
theorem sparse_of_mode (isSparse : index.mode = .sparse) : index.sparse = true := by
  unfold mode at isSparse
  split at isSparse
  · assumption
  · cases isSparse

end IndexLayout

namespace Entity

theorem mem_parts_of_index {entity : Entity} {index : IndexLayout} (isIndex : index ∈ entity.indexes)
    {part : KeyPart} (isPart : part ∈ index.parts) : part ∈ entity.parts :=
  List.mem_append.2 (.inr (List.mem_flatMap.2 ⟨index, isIndex, isPart⟩))

def attributeNames (entity : Entity) : List String := entity.attributes.map (·.name)

/-- Physical and declared attributes have different names, all of them words and none of them
the marker. -/
structure WellNamed (entity : Entity) : Prop where
  nodup : (entity.physicalAttributes ++ entity.attributeNames).Nodup
  words : ∀ name ∈ entity.physicalAttributes ++ entity.attributeNames, IsWord name
  unmarked : entityMarker ∉ entity.physicalAttributes ++ entity.attributeNames

namespace WellNamed

variable {entity : Entity} (wellNamed : entity.WellNamed)
include wellNamed

theorem nodup_attributes : entity.attributeNames.Nodup :=
  (List.nodup_append.1 wellNamed.nodup).2.1

theorem nodup_physical : entity.physicalAttributes.Nodup :=
  (List.nodup_append.1 wellNamed.nodup).1

theorem physical_ne_attribute {physical name : String}
    (isPhysical : physical ∈ entity.physicalAttributes) (isDeclared : name ∈ entity.attributeNames) :
    physical ≠ name :=
  (List.nodup_append.1 wellNamed.nodup).2.2 _ isPhysical _ isDeclared

theorem isWord_attribute {name : String} (isDeclared : name ∈ entity.attributeNames) : IsWord name :=
  wellNamed.words name (List.mem_append.2 (.inr isDeclared))

theorem isWord_physical {name : String} (isPhysical : name ∈ entity.physicalAttributes) :
    IsWord name :=
  wellNamed.words name (List.mem_append.2 (.inl isPhysical))

theorem marker_ne_attribute {name : String} (isDeclared : name ∈ entity.attributeNames) :
    entityMarker ≠ name := by
  rintro rfl
  exact wellNamed.unmarked (List.mem_append.2 (.inr isDeclared))

theorem marker_ne_physical {name : String} (isPhysical : name ∈ entity.physicalAttributes) :
    entityMarker ≠ name := by
  rintro rfl
  exact wellNamed.unmarked (List.mem_append.2 (.inl isPhysical))

end WellNamed

end Entity

/-- Every name of a part is a declared attribute of a scalar type. -/
def KeyPart.Refers (attributes : List Attribute) (part : KeyPart) : Prop :=
  ∀ name ∈ part.names, ∃ attr ∈ attributes, attr.name = name ∧ attr.type.isScalar = true

def Template.allows (template : Template) (type : AttributeType) : Bool :=
  if template.isAlias then type.isScalar else type.isTemplateScalar

theorem Template.isScalar_of_allows {template : Template} {type : AttributeType}
    (allowed : template.allows type = true) : type.isScalar = true := by
  unfold allows at allowed
  split at allowed
  · exact allowed
  · simp [AttributeType.isScalar, allowed]

/-- Every name of a part is a declared attribute of a type that the template can be derived
from. -/
def KeyPart.Typed (attributes : List Attribute) (part : KeyPart) : Prop :=
  ∀ name ∈ part.names, ∃ attr ∈ attributes, attr.name = name ∧ part.template.allows attr.type = true

theorem KeyPart.Typed.refers {attributes : List Attribute} {part : KeyPart}
    (typed : part.Typed attributes) : part.Refers attributes := by
  intro name isName
  obtain ⟨attr, isAttribute, name_eq, allowed⟩ := typed name isName
  exact ⟨attr, isAttribute, name_eq, Template.isScalar_of_allows allowed⟩

/-! ## Compiling -/

namespace Declaration

variable {declaration : Declaration}

/-- What an entity has from its declaration. -/
structure LaysOut (declaration : Declaration) (entity : Entity) : Prop where
  name : entity.name = declaration.name
  attributes : entity.attributes = declaration.attributes
  key : declaration.keyOn entity.table .primary declaration.key = .ok entity.key
  indexes : List.Forall₂
    (fun declared index => declaration.indexOn entity.table declared.1 declared.2 = .ok index)
    declaration.indexes entity.indexes
  uniques : declaration.uniquesOn entity.table declaration.attributes = .ok entity.uniques

theorem laysOut_of_compile {defaultTable : Option Table} {entity : Entity}
    (compiled : declaration.compile defaultTable = .ok entity) : declaration.LaysOut entity := by
  unfold compile at compiled
  split at compiled
  · next table _ =>
    obtain ⟨key, isKey, rest⟩ := bind_eq_ok.1 compiled
    obtain ⟨indexes, areIndexes, rest⟩ := bind_eq_ok.1 rest
    obtain ⟨uniques, areUniques, answer⟩ := bind_eq_ok.1 rest
    obtain rfl := Except.ok.inj answer
    exact ⟨rfl, rfl, isKey, forall₂_of_mapM areIndexes, areUniques⟩
  · cases compiled

theorem part_eq_ok {attr : String} {template : Template} {part : KeyPart}
    (isPart : declaration.part attr template = .ok part) :
    part = ⟨attr, template⟩ ∧ part.Typed declaration.attributes := by
  obtain ⟨⟨⟩, checked, answer⟩ := bind_eq_ok.1 isPart
  obtain rfl := Except.ok.inj answer
  refine ⟨rfl, ?_⟩
  intro name isMember
  have passed := each_of_forM checked name isMember
  unfold checkReference at passed
  split at passed
  · cases passed
  · next type type_eq =>
    unfold typeOf? at type_eq
    obtain ⟨attr, found, rfl⟩ := Option.map_eq_some_iff.1 type_eq
    have isDeclared : attr ∈ declaration.attributes := by
      simpa using List.mem_of_find?_eq_some found
    refine ⟨attr, isDeclared, by simpa using List.find?_some found, ?_⟩
    change (if template.allows attr.type = true then _ else _) = _ at passed
    split at passed
    · assumption
    · cases passed

theorem keyOn_eq_ok {table : Table} {role : KeyRole} {templates : KeyTemplates} {key : Key}
    (isKey : declaration.keyOn table role templates = .ok key) :
    key.partition = ⟨table.partitionKey, templates.partition⟩ ∧
      key.sort = templates.sort.bind (fun template => table.sortKey.map (⟨·, template⟩)) ∧
      key.parts.map (·.attr) = table.keyAttributes ∧
      ∀ part ∈ key.parts, part.Typed declaration.attributes := by
  unfold keyOn at isKey
  dsimp only at isKey
  split at isKey
  · next attr template attr_eq template_eq =>
    obtain ⟨sort, isSort, rest⟩ := bind_eq_ok.1 isKey
    obtain ⟨part, isPart, rfl⟩ := map_eq_ok.1 isSort
    obtain ⟨partition, isPartition, answer⟩ := bind_eq_ok.1 rest
    obtain rfl := Except.ok.inj answer
    obtain ⟨rfl, typedPartition⟩ := part_eq_ok isPartition
    obtain ⟨rfl, typedSort⟩ := part_eq_ok isPart
    refine ⟨rfl, by simp [attr_eq, template_eq], by simp [Key.parts, Table.keyAttributes, attr_eq], ?_⟩
    intro part isMember
    rcases List.mem_cons.1 isMember with rfl | isMember
    · exact typedPartition
    · obtain rfl := List.mem_singleton.1 isMember
      exact typedSort
  · next attr_eq template_eq =>
    obtain ⟨sort, isSort, rest⟩ := bind_eq_ok.1 isKey
    obtain rfl := Except.ok.inj isSort
    obtain ⟨partition, isPartition, answer⟩ := bind_eq_ok.1 rest
    obtain rfl := Except.ok.inj answer
    obtain ⟨rfl, typedPartition⟩ := part_eq_ok isPartition
    refine ⟨rfl, by simp [template_eq], by simp [Key.parts, Table.keyAttributes, attr_eq], ?_⟩
    intro part isMember
    obtain rfl := List.mem_singleton.1 isMember
    exact typedPartition
  · cases isKey
  · cases isKey

/-- An index is laid out on the attributes that its table defines for it. -/
structure LaysOutIndex (declaration : Declaration) (table : Table) (index : IndexLayout)
    (definition : IndexDefinition) : Prop where
  defined : table.index? index.name = some definition
  partition : index.partition.map (·.attr) = definition.partitionKey
  sort : index.sort.attr = definition.sortKey
  typed : ∀ part ∈ index.parts, part.Typed declaration.attributes

theorem indexOn_eq_ok {table : Table} {name : String} {templates : IndexTemplates}
    {index : IndexLayout} (isIndex : declaration.indexOn table name templates = .ok index) :
    index.name = name ∧ ∃ definition, declaration.LaysOutIndex table index definition := by
  unfold indexOn at isIndex
  split at isIndex
  · next definition defined =>
    have laidOut : ∀ {partition : Option KeyPart},
        partition.map (·.attr) = definition.partitionKey →
        (∀ part ∈ partition, part.Typed declaration.attributes) →
        (do
          let sort ← declaration.part definition.sortKey templates.sort
          return ⟨name, definition.kind, partition, sort,
            templates.sparse.getD definition.sparse⟩ : Except Error IndexLayout) = .ok index →
        index.name = name ∧ ∃ definition, declaration.LaysOutIndex table index definition := by
      intro partition partition_eq typedPartition isIndex
      obtain ⟨sort, isSort, answer⟩ := bind_eq_ok.1 isIndex
      obtain rfl := Except.ok.inj answer
      obtain ⟨rfl, typedSort⟩ := part_eq_ok isSort
      refine ⟨rfl, definition, defined, partition_eq, rfl, ?_⟩
      intro part isMember
      simp only [IndexLayout.parts, List.mem_append, Option.mem_toList, List.mem_singleton] at isMember
      rcases isMember with isMember | rfl
      · exact typedPartition part isMember
      · exact typedSort
    dsimp only at isIndex
    by_cases sameKind : definition.kind = templates.kind
    · rw [if_neg (by simpa using sameKind)] at isIndex
      split at isIndex
      · next attr template attr_eq template_eq =>
        obtain ⟨partition, isPartition, rest⟩ := bind_eq_ok.1 isIndex
        obtain ⟨part, isPart, rfl⟩ := map_eq_ok.1 isPartition
        obtain ⟨rfl, typedPart⟩ := part_eq_ok isPart
        refine laidOut (by simp [attr_eq]) ?_ rest
        rintro _ ⟨⟩
        exact typedPart
      · next attr_eq template_eq =>
        obtain ⟨partition, isPartition, rest⟩ := bind_eq_ok.1 isIndex
        obtain rfl := Except.ok.inj isPartition
        refine laidOut (by simp [attr_eq]) ?_ rest
        rintro _ ⟨⟩
      · cases isIndex
      · cases isIndex
    · rw [if_pos (by simpa using sameKind)] at isIndex
      cases isIndex
  · cases isIndex

theorem uniquesOn_eq_ok {table : Table} {attributes : List Attribute} {uniques : List UniqueLayout}
    (laidOut : declaration.uniquesOn table attributes = .ok uniques) :
    List.Forall₂ (fun attr unique => unique.attr = attr.name ∧ ∃ rule ∈ attr.unique,
        declaration.keyOn table (.unique attr.name)
          (declaration.uniqueTemplates table attr.name rule) = .ok unique.key)
      (attributes.filter (·.unique.isSome)) uniques := by
  induction attributes generalizing uniques with
  | nil =>
    obtain rfl := Except.ok.inj laidOut
    exact .nil
  | cons attr attributes inductionHypothesis =>
    unfold uniquesOn at laidOut
    split at laidOut
    · next isOrdinary =>
      rw [List.filter_cons_of_neg (by simp [isOrdinary])]
      exact inductionHypothesis laidOut
    · next rule isUnique =>
      rw [List.filter_cons_of_pos (by simp [isUnique])]
      obtain ⟨key, isKey, rest⟩ := bind_eq_ok.1 laidOut
      obtain ⟨others, areOthers, answer⟩ := bind_eq_ok.1 rest
      obtain rfl := Except.ok.inj answer
      exact .cons ⟨rfl, rule, by simp [isUnique], isKey⟩ (inductionHypothesis areOthers)

section LaysOut

variable {entity : Entity} (laysOut : declaration.LaysOut entity)
include laysOut

theorem LaysOut.index {index : IndexLayout} (isIndex : index ∈ entity.indexes) :
    ∃ definition, declaration.LaysOutIndex entity.table index definition := by
  obtain ⟨declared, -, isLaidOut⟩ := exists_of_forall₂ laysOut.indexes isIndex
  exact (indexOn_eq_ok isLaidOut).2

/-- The parts of all keys are derived from declared attributes of fitting types. -/
theorem LaysOut.typed {part : KeyPart} (isPart : part ∈ entity.parts) :
    part.Typed entity.attributes := by
  rw [laysOut.attributes]
  rcases List.mem_append.1 isPart with isKeyPart | isIndexPart
  · exact (keyOn_eq_ok laysOut.key).2.2.2 part isKeyPart
  · obtain ⟨index, isIndex, isPart⟩ := List.mem_flatMap.1 isIndexPart
    obtain ⟨definition, laysOutIndex⟩ := laysOut.index isIndex
    exact laysOutIndex.typed part isPart

/-- The names of all keys are those of declared attributes. -/
theorem LaysOut.mem_attributeNames {part : KeyPart} (isPart : part ∈ entity.parts) {name : String}
    (isName : name ∈ part.names) : name ∈ entity.attributeNames := by
  obtain ⟨attr, isAttribute, rfl, -⟩ := laysOut.typed isPart name isName
  exact List.mem_map.2 ⟨attr, isAttribute, rfl⟩

/-- The types of the names of an index are scalar. -/
theorem LaysOut.isScalar_of_index (nodup : entity.attributeNames.Nodup) {index : IndexLayout}
    (isIndex : index ∈ entity.indexes) :
    ∀ name ∈ index.names, (entity.attribute? name).any (·.type.isScalar) = true := by
  intro name isName
  obtain ⟨part, isPart, isName⟩ := List.mem_flatMap.1 isName
  obtain ⟨attr, isAttribute, rfl, isScalar⟩ :=
    (laysOut.typed (Entity.mem_parts_of_index isIndex isPart)).refers name isName
  rw [Entity.attribute?, find?_of_nodup nodup isAttribute, Option.any_some, isScalar]

/-- The records of a unique attribute are derived from declared attributes of fitting types. -/
theorem LaysOut.unique {unique : UniqueLayout} (isUnique : unique ∈ entity.uniques) :
    unique.attr ∈ entity.attributeNames ∧
      unique.key.parts.map (·.attr) = entity.table.keyAttributes ∧
      ∀ part ∈ unique.key.parts, part.Typed entity.attributes := by
  obtain ⟨attr, isMember, attr_eq, rule, -, isKey⟩ :=
    exists_of_forall₂ (uniquesOn_eq_ok laysOut.uniques) isUnique
  obtain ⟨-, -, names_eq, typed⟩ := keyOn_eq_ok isKey
  rw [Entity.attributeNames, laysOut.attributes, attr_eq]
  exact ⟨List.mem_map.2 ⟨attr, (List.mem_filter.1 isMember).1, rfl⟩, names_eq, typed⟩

end LaysOut

end Declaration

/-! ## Tables without a sort key -/

def Table.ofIndexes (indexes : List (String × IndexDefinition)) : Table where
  name := "T"
  partitionKey := "PK"
  sortKey := none
  indexes := NameMap.ofList indexes

def usersTable : Table := .ofIndexes []

def plainUserEntity : Entity where
  name := "USER"
  table := usersTable
  attributes := [{ name := "id", type := .string }]
  key := ⟨⟨"PK", .text "USER#\x7b\x7bid\x7d\x7d"⟩, none⟩
  indexes := []
  uniques := []

end SingleTable
