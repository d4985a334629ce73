import SingleTable.Proofs.Index.Impact

/-!
# Keys of typed attributes

A declaration compiles only if every template is derived from attributes of types that it can be
made of.  Over attributes of their declared types a key then fails for one reason only: some
template refers to an attribute without a value (`Entity.fails_for_want`).

The argument is local to one name of one template.  What the compiler checks of the name
(`Template.allows`) and what its value is known to be (`AttributeType.admits`) meet in
`Template.renders_of_admits`; above it each derivation only hands on the failure of a part.
-/

namespace SingleTable

/-! ## Values of a type -/

namespace AttributeType

/-- Whether a value is of a type.  Nothing is asked of the types that no key is made of. -/
def admits : AttributeType → Value → Bool
  | string, value | enumeration, value => (value matches .string _)
  | number, value => (value matches .number _)
  | boolean, value => (value matches .boolean _)
  | binary, value => (value matches .binary _)
  | list, _ | map, _ | stringSet, _ | numberSet, _ | binarySet, _ => true

variable {type : AttributeType} {value : Value}

theorem isScalar_of_admits (isScalar : type.isScalar = true) (admitted : type.admits value = true) :
    value.isScalar = true := by
  cases type with
  | list | map | stringSet | numberSet | binarySet => cases isScalar
  | string | number | boolean | binary | enumeration =>
    cases value <;> first | rfl | cases admitted

theorem keyText?_of_admits (isTemplateScalar : type.isTemplateScalar = true)
    (admitted : type.admits value = true) : value.keyText?.isSome = true := by
  cases type with
  | binary | list | map | stringSet | numberSet | binarySet => cases isTemplateScalar
  | string | number | enumeration => cases value <;> first | rfl | cases admitted
  | boolean =>
    cases value with
    | boolean flag => cases flag <;> rfl
    | _ => cases admitted

end AttributeType

/-- A template is made of the values of the types that it may be derived from. -/
theorem Template.renders_of_admits {template : Template} {type : AttributeType} {value : Value}
    (allowed : template.allows type = true) (admitted : type.admits value = true) :
    template.renders value = true := by
  unfold allows at allowed
  unfold renders
  by_cases isAlias : template.isAlias = true
  · rw [if_pos isAlias] at allowed ⊢
    exact AttributeType.isScalar_of_admits allowed admitted
  · rw [if_neg isAlias] at allowed ⊢
    exact AttributeType.keyText?_of_admits allowed admitted

/-! ## Parts -/

def KeyPart.Renders (part : KeyPart) (attributes : Item) : Prop :=
  ∀ name ∈ part.names, ∀ value, attributes.present? name = some value →
    part.template.renders value = true

/-- An error tells of an attribute without a value that the template of a part refers to. -/
def Item.Lacks (attributes : Item) (parts : List KeyPart) (error : Error) : Prop :=
  ∃ part ∈ parts, ∃ name ∈ part.names, attributes.present? name = none ∧
    error = .unresolved part.template.display name

theorem Item.Lacks.mono {attributes : Item} {parts larger : List KeyPart} {error : Error}
    (lacks : attributes.Lacks parts error) (subset : ∀ part ∈ parts, part ∈ larger) :
    attributes.Lacks larger error := by
  obtain ⟨part, isPart, cause⟩ := lacks
  exact ⟨part, subset part isPart, cause⟩

theorem Item.Lacks.ne_keyValue {attributes : Item} {parts : List KeyPart} {error : Error}
    (lacks : attributes.Lacks parts error) (name : String) : error ≠ .keyValue name := by
  obtain ⟨part, -, other, -, -, rfl⟩ := lacks
  simp

theorem KeyPart.lacks_of_resolveAll {mode : Completeness} {attributes : Item}
    {parts : List KeyPart} (renders : ∀ part ∈ parts, part.Renders attributes)
    {error : InterpolationError} (failed : resolveAll mode attributes parts = .error error) :
    attributes.Lacks parts error.toError ∨ mode = .sparse ∧ ∃ name, error = .sparseSkip name := by
  obtain ⟨part, isPart, failed⟩ := error_of_resolveAll failed
  obtain ⟨name, isName, ⟨isMissing, cause⟩ | ⟨value, value_eq, notRendered, -⟩⟩ :=
    Template.error_of_interpolate failed
  · rcases cause with rfl | ⟨isSparse, rfl⟩
    · exact .inl ⟨part, isPart, name, isName, isMissing, rfl⟩
    · exact .inr ⟨isSparse, name, rfl⟩
  · have rendered := renders part isPart name isName value value_eq
    rw [notRendered] at rendered
    cases rendered

theorem KeyPart.lacks_of_resolveAll_strict {attributes : Item} {parts : List KeyPart}
    (renders : ∀ part ∈ parts, part.Renders attributes) {error : InterpolationError}
    (failed : resolveAll .strict attributes parts = .error error) :
    attributes.Lacks parts error.toError := by
  rcases lacks_of_resolveAll renders failed with lacks | ⟨isSparse, -⟩
  · exact lacks
  · cases isSparse

theorem Key.lacks_of_resolve {key : Key} {attributes : Item} {error : Error}
    (renders : ∀ part ∈ key.parts, part.Renders attributes)
    (failed : key.resolve attributes = .error error) : attributes.Lacks key.parts error := by
  unfold resolve at failed
  split at failed
  · cases failed
  · next cause cause_eq =>
    obtain rfl := Except.error.inj failed
    exact KeyPart.lacks_of_resolveAll_strict renders cause_eq

namespace Entity

variable {entity : Entity}

/-! ## Typed attributes -/

def Typed (entity : Entity) (attributes : Item) : Prop :=
  ∀ attr ∈ entity.attributes, ∀ value, attributes.present? attr.name = some value →
    attr.type.admits value = true

def TypedBody (entity : Entity) (body : UpdateBody) : Prop :=
  ∀ attr ∈ entity.attributes, ∀ value, body.get? attr.name = some (.set value) →
    value.isNull = true ∨ attr.type.admits value = true

theorem renders_of_typed {part : KeyPart} (typed : part.Typed entity.attributes) {attributes : Item}
    (holds : entity.Typed attributes) : part.Renders attributes := by
  intro name isName value value_eq
  obtain ⟨attr, isAttribute, rfl, allowed⟩ := typed name isName
  exact Template.renders_of_admits allowed (holds attr isAttribute value value_eq)

theorem typed_knownValues {body : UpdateBody} {context : Item} (typedBody : entity.TypedBody body)
    (typed : entity.Typed context) : entity.Typed (knownValues body context) := by
  intro attr isAttribute value value_eq
  obtain ⟨found, notNull⟩ := Option.filter_eq_some_iff.1 value_eq
  rw [get?_knownValues, Option.or_eq_some_iff] at found
  rcases found with assigned | ⟨-, found⟩
  · obtain ⟨action, action_eq, literal_eq⟩ := Option.bind_eq_some_iff.1 assigned
    obtain ⟨rfl, -⟩ := UpdateAction.literal?_eq_some_iff.1 literal_eq
    rcases typedBody attr isAttribute value action_eq with isNull | admitted
    · simp [isNull] at notNull
    · exact admitted
  · exact typed attr isAttribute value (Option.filter_eq_some_iff.2 ⟨found, notNull⟩)

/-! ## Items -/

theorem lacks_of_addIndexes {attributes : Item} {indexes : List IndexLayout} {item : Item}
    {error : Error} (renders : ∀ part ∈ indexes.flatMap (·.parts), part.Renders attributes)
    (failed : addIndexes attributes indexes item = .error error) :
    attributes.Lacks (indexes.flatMap (·.parts)) error := by
  induction indexes generalizing item with
  | nil => cases failed
  | cons index indexes inductionHypothesis =>
    simp only [List.flatMap_cons, List.mem_append] at renders
    have later {item : Item} (failed : addIndexes attributes indexes item = .error error) :
        attributes.Lacks ((index :: indexes).flatMap (·.parts)) error :=
      (inductionHypothesis (fun part isPart => renders part (.inr isPart)) failed).mono
        (by simp +contextual)
    unfold addIndexes at failed
    split at failed
    · exact later failed
    · exact later failed
    · next cause notSkipped cause_eq =>
      obtain rfl := Except.error.inj failed
      have rendersIndex : ∀ part ∈ index.parts, part.Renders attributes :=
        fun part isPart => renders part (.inl isPart)
      rcases KeyPart.lacks_of_resolveAll rendersIndex cause_eq with lacks | ⟨-, name, rfl⟩
      · exact lacks.mono (by simp +contextual)
      · exact absurd rfl (notSkipped name)

theorem lacks_of_toPhysical {draw : String → Moment} {attributes : Item} {error : Error}
    (renders : ∀ part ∈ entity.parts, part.Renders (entity.applyDefaults draw attributes))
    (failed : entity.toPhysical draw attributes = .error error) :
    (entity.applyDefaults draw attributes).Lacks entity.parts error := by
  simp only [parts, List.mem_append] at renders
  rcases bind_eq_error.1 failed with failed | ⟨key, -, rest⟩
  · have lacks := Key.lacks_of_resolve (fun part isPart => renders part (.inl isPart)) failed
    exact lacks.mono fun part isPart => List.mem_append.2 (.inl isPart)
  · rcases bind_eq_error.1 rest with failed | ⟨item, -, answer⟩
    · have lacks := lacks_of_addIndexes (fun part isPart => renders part (.inr isPart)) failed
      exact lacks.mono fun part isPart => List.mem_append.2 (.inr isPart)
    · cases answer

/-- A declared attribute that the item lacks was not there before it was written either. -/
theorem present?_of_present?_toPhysical
    (apart : ∀ name ∈ entity.attributeNames, name ∉ entity.physicalAttributes)
    {draw : String → Moment} {attributes item : Item}
    (written : entity.toPhysical draw attributes = .ok item) {name : String}
    (isDeclared : name ∈ entity.attributeNames) (isMissing : item.present? name = none) :
    (entity.applyDefaults draw attributes).present? name = none := by
  by_cases isMarker : name = entityMarker
  · -- the marker is never missing
    subst isMarker
    obtain ⟨key, indexed, -, -, rfl⟩ := toPhysical_eq_ok written
    simp [Item.present?, Value.isNull] at isMissing
  · have notPhysical := apart name isDeclared
    rwa [Item.present?, get?_toPhysical_of_not_physical written notPhysical isMarker] at isMissing

/-- A template that can be made of the attributes can be made of the item that stores them. -/
theorem renders_toPhysical
    (apart : ∀ name ∈ entity.attributeNames, name ∉ entity.physicalAttributes)
    {draw : String → Moment} {attributes item : Item}
    (written : entity.toPhysical draw attributes = .ok item) {part : KeyPart}
    (declared : ∀ name ∈ part.names, name ∈ entity.attributeNames)
    (renders : part.Renders (entity.applyDefaults draw attributes)) : part.Renders item := by
  intro name isName value value_eq
  by_cases isMarker : name = entityMarker
  · -- the marker is a text, which every template can be made of
    subst isMarker
    obtain ⟨key, indexed, -, -, rfl⟩ := toPhysical_eq_ok written
    obtain ⟨found, -⟩ := Option.filter_eq_some_iff.1 value_eq
    obtain rfl : Value.string entity.name = value := by simpa using found
    simp [Template.renders, Value.isScalar, Value.keyText?]
  · refine renders name isName value ?_
    have notPhysical := apart name (declared name isName)
    rwa [Item.present?, get?_toPhysical_of_not_physical written notPhysical isMarker] at value_eq

/-! ## Records -/

/-- An error tells that a unique attribute has no value, or some attribute that the template of a
record refers to. -/
def LacksUnique (entity : Entity) (attributes : Item) (error : Error) : Prop :=
  ∃ unique ∈ entity.uniques,
    (attributes.present? unique.attr = none ∧ error = .missingUnique entity.name unique.attr) ∨
      attributes.Lacks unique.key.parts error

theorem lacksUnique_of_uniqueRecords {attributes : Item} {error : Error}
    (renders : ∀ unique ∈ entity.uniques, ∀ part ∈ unique.key.parts, part.Renders attributes)
    (failed : entity.uniqueRecords attributes = .error error) :
    entity.LacksUnique attributes error := by
  obtain ⟨unique, isUnique, failed⟩ := exists_of_mapM_eq_error failed
  refine ⟨unique, isUnique, ?_⟩
  split at failed
  · next isMissing => exact .inl ⟨isMissing, (Except.error.inj failed).symm⟩
  · rcases bind_eq_error.1 failed with failed | ⟨record, -, answer⟩
    · exact .inr (Key.lacks_of_resolve (renders unique isUnique) failed)
    · cases answer

/-- The records of a new item are derived from the item, whose declared attributes are the ones
given. -/
theorem lacksUnique_of_toPhysical {declaration : Declaration} (laysOut : declaration.LaysOut entity)
    (apart : ∀ name ∈ entity.attributeNames, name ∉ entity.physicalAttributes)
    {draw : String → Moment} {attributes item : Item}
    (renders : ∀ unique ∈ entity.uniques, ∀ part ∈ unique.key.parts,
      part.Renders (entity.applyDefaults draw attributes))
    (written : entity.toPhysical draw attributes = .ok item) {error : Error}
    (failed : entity.uniqueRecords item = .error error) :
    entity.LacksUnique (entity.applyDefaults draw attributes) error := by
  have declared {unique : UniqueLayout} (isUnique : unique ∈ entity.uniques) {part : KeyPart}
      (isPart : part ∈ unique.key.parts) : ∀ name ∈ part.names, name ∈ entity.attributeNames := by
    intro name isName
    obtain ⟨attr, isAttribute, rfl, -⟩ := (laysOut.unique isUnique).2.2 part isPart name isName
    exact List.mem_map.2 ⟨attr, isAttribute, rfl⟩
  have rendersItem : ∀ unique ∈ entity.uniques, ∀ part ∈ unique.key.parts, part.Renders item :=
    fun unique isUnique part isPart => renders_toPhysical apart written (declared isUnique isPart)
      (renders unique isUnique part isPart)
  obtain ⟨unique, isUnique, cause⟩ := lacksUnique_of_uniqueRecords rendersItem failed
  refine ⟨unique, isUnique, ?_⟩
  rcases cause with ⟨isMissing, error_eq⟩ | ⟨part, isPart, name, isName, isMissing, error_eq⟩
  · have isDeclared := (laysOut.unique isUnique).1
    exact .inl ⟨present?_of_present?_toPhysical apart written isDeclared isMissing, error_eq⟩
  · have isDeclared := declared isUnique isPart name isName
    exact .inr ⟨part, isPart, name, isName,
      present?_of_present?_toPhysical apart written isDeclared isMissing, error_eq⟩

/-! ## Changes of indexes -/

section Changes

variable {body : UpdateBody} {name : String}

theorem impactOn_ne_keyValue {sparse : Bool} {part : KeyPart} {attr : String} :
    entity.impactOn body sparse part attr ≠ .error (.keyValue name) := by
  unfold impactOn
  split
  · simp
  · split
    · simp
    · split
      · split <;> simp
      · split <;> simp

theorem impactOnAll_ne_keyValue {sparse : Bool} {references : List (KeyPart × String)} :
    entity.impactOnAll body sparse references ≠ .error (.keyValue name) := by
  induction references with
  | nil => simp [impactOnAll]
  | cons reference references inductionHypothesis =>
    intro failed
    rcases bind_eq_error.1 failed with failed | ⟨first, -, rest⟩
    · exact impactOn_ne_keyValue failed
    · rcases bind_eq_error.1 rest with failed | ⟨others, -, answer⟩
      · exact inductionHypothesis failed
      · cases answer

theorem indexChanges_ne_keyValue {values : Item} {index : IndexLayout}
    (renders : ∀ part ∈ index.parts, part.Renders values) :
    entity.indexChanges body values index ≠ .error (.keyValue name) := by
  intro failed
  rcases bind_eq_error.1 failed with failed | ⟨impact, -, rest⟩
  · exact impactOnAll_ne_keyValue failed
  · cases impact with
    | untouched | cleared => cases rest
    | changed =>
      dsimp only at rest
      split at rest
      · cases rest
      · next cause cause_eq =>
        have lacks := KeyPart.lacks_of_resolveAll_strict renders cause_eq
        exact lacks.ne_keyValue name (Except.error.inj rest)

theorem allIndexChanges_ne_keyValue {values : Item} {indexes : List IndexLayout}
    (renders : ∀ index ∈ indexes, ∀ part ∈ index.parts, part.Renders values) :
    entity.allIndexChanges body values indexes ≠ .error (.keyValue name) := by
  induction indexes with
  | nil => simp [allIndexChanges]
  | cons index indexes inductionHypothesis =>
    intro failed
    rcases bind_eq_error.1 failed with failed | ⟨first, -, rest⟩
    · exact indexChanges_ne_keyValue (renders index (by simp)) failed
    · rcases bind_eq_error.1 rest with failed | ⟨others, -, answer⟩
      · exact inductionHypothesis (fun other isOther => renders other (by simp [isOther])) failed
      · cases answer

end Changes

/-! ## All derivations -/

/-- No key of a compiled entity is refused for what a typed attribute holds: items, primary keys
and records fail only for want of a value that some template refers to, records also for want of
the unique value, and changes of indexes never tell of an unfit value. -/
theorem fails_for_want {declaration : Declaration} {defaultTable : Option Table}
    (compiled : declaration.compile defaultTable = .ok entity)
    (apart : ∀ name ∈ entity.attributeNames, name ∉ entity.physicalAttributes)
    {draw : String → Moment} {attributes : Item}
    (typed : entity.Typed (entity.applyDefaults draw attributes)) :
    (∀ error, entity.toPhysical draw attributes = .error error →
      (entity.applyDefaults draw attributes).Lacks entity.parts error) ∧
    (∀ item error, entity.toPhysical draw attributes = .ok item →
      entity.uniqueRecords item = .error error →
        entity.LacksUnique (entity.applyDefaults draw attributes) error) ∧
    (∀ known, entity.Typed known →
      (∀ error, entity.primaryKey known = .error error → known.Lacks entity.key.parts error) ∧
      (∀ error, entity.uniqueRecords known = .error error → entity.LacksUnique known error) ∧
      ∀ body, entity.TypedBody body → ∀ name,
        entity.affectedIndexes body known ≠ .error (.keyValue name)) := by
  have laysOut := Declaration.laysOut_of_compile compiled
  have rendersParts {known : Item} (typed : entity.Typed known) :
      ∀ part ∈ entity.parts, part.Renders known :=
    fun part isPart => renders_of_typed (laysOut.typed isPart) typed
  have rendersUnique {known : Item} (typed : entity.Typed known) :
      ∀ unique ∈ entity.uniques, ∀ part ∈ unique.key.parts, part.Renders known :=
    fun unique isUnique part isPart =>
      renders_of_typed ((laysOut.unique isUnique).2.2 part isPart) typed
  refine ⟨fun error => lacks_of_toPhysical (rendersParts typed),
    fun item error written failed =>
      lacksUnique_of_toPhysical laysOut apart (rendersUnique typed) written failed, ?_⟩
  intro known typed
  refine ⟨?_, fun error => lacksUnique_of_uniqueRecords (rendersUnique typed), ?_⟩
  · intro error failed
    refine Key.lacks_of_resolve (fun part isPart => ?_) failed
    exact rendersParts typed part (List.mem_append.2 (.inl isPart))
  · intro body typedBody name
    refine allIndexChanges_ne_keyValue fun index isIndex part isPart => ?_
    exact rendersParts (typed_knownValues typedBody typed) part (mem_parts_of_index isIndex isPart)

end Entity

/-! ## Orders of a customer -/

/-- Orders, listed for each customer by a rank that is kept as a number, each with a code of its
own. -/
def orderDeclaration : Declaration where
  name := "ORDER"
  table := some
    { name := "T", partitionKey := "PK", sortKey := none,
      indexes := NameMap.ofList [("GSI1", ⟨.globalIndex, some "GSI1PK", "GSI1SK", true⟩)] }
  key := ⟨.text "ORDER#\x7b\x7bid\x7d\x7d", none⟩
  indexes := [("GSI1",
    ⟨.globalIndex, some (.text "CUSTOMER#\x7b\x7bcustomer\x7d\x7d"), .copyOf "rank", none⟩)]
  attributes := [
    { name := "id", type := .string },
    { name := "customer", type := .string },
    { name := "rank", type := .number },
    { name := "code", type := .binary,
      unique := some (.explicit ⟨.copyOf "code", none⟩) }]

def orderEntity : Entity where
  name := "ORDER"
  table := orderDeclaration.table.get rfl
  attributes := orderDeclaration.attributes
  key := ⟨⟨"PK", .text "ORDER#\x7b\x7bid\x7d\x7d"⟩, none⟩
  indexes := [⟨"GSI1", .globalIndex,
    some ⟨"GSI1PK", .text "CUSTOMER#\x7b\x7bcustomer\x7d\x7d"⟩, ⟨"GSI1SK", .copyOf "rank"⟩, true⟩]
  uniques := [⟨"code", ⟨⟨"PK", .copyOf "code"⟩, none⟩⟩]

def unrankedOrder : Item :=
  .ofList [("code", .binary [1, 2]), ("customer", .string "ann"), ("id", .string "1")]

/-- The order is refused for want of a rank, which is copied and so cannot leave the index out. -/
theorem lacks_unrankedOrder :
    orderDeclaration.compile none = .ok orderEntity ∧
      ∃ error, orderEntity.toPhysical (fun _ => ⟨0, fun _ => 0⟩) unrankedOrder = .error error ∧
        unrankedOrder.Lacks orderEntity.parts error := by
  have compiled : orderDeclaration.compile none = .ok orderEntity := by
    with_unfolding_all rfl
  have apart : ∀ name ∈ orderEntity.attributeNames, name ∉ orderEntity.physicalAttributes := by
    decide +kernel
  have filled_eq : orderEntity.applyDefaults (fun _ => ⟨0, fun _ => 0⟩) unrankedOrder =
      unrankedOrder := by decide +kernel
  have typed : orderEntity.Typed unrankedOrder := by
    have each : ∀ attr ∈ orderEntity.attributes,
        (unrankedOrder.present? attr.name).all attr.type.admits = true := by decide +kernel
    intro attr isAttribute value value_eq
    have admitted := each attr isAttribute
    rwa [value_eq] at admitted
  have fails : (orderEntity.toPhysical (fun _ => ⟨0, fun _ => 0⟩) unrankedOrder).isOk = false := by
    decide +kernel
  refine ⟨compiled, ?_⟩
  cases written : orderEntity.toPhysical (fun _ => ⟨0, fun _ => 0⟩) unrankedOrder with
  | ok item => simp [written, Except.isOk, Except.toBool] at fails
  | error error =>
    obtain ⟨lacks, -, -⟩ := Entity.fails_for_want compiled apart (filled_eq ▸ typed)
    exact ⟨error, rfl, filled_eq ▸ lacks error written⟩

end SingleTable
