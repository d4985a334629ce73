import SingleTable.Proofs.Entity.Protection

/-!
# Querying for what was created

A query by attributes goes by the key parts of the entity, and names the attributes of its key
condition after them; the sort key it takes from the table.  A key condition is read as a condition on
the item (`Entity.AsksQuery.reads`), and its partition is the one that the item was written to
(`Entity.GoesBy.asks`), so what an entity creates its own queries find (`Entity.finds_created`).

How the values of sort keys compare is up to the service.
-/

namespace SingleTable

open Grammar

/-! ## Key conditions -/

namespace KeyCondition

def asCondition (condition : KeyCondition) : Condition :=
  (Condition.equals condition.partitionKey condition.partition).andOption
    (condition.sort.map fun asked => .test asked.1 asked.2.toAttributeTest)

variable {condition : KeyCondition}

theorem expresses_draft (plain : ∀ path ∈ condition.paths, Path.IsPlain path)
    {draft : Draft} (drafted : condition.draft = .ok draft) :
    draft.Expresses condition.asCondition.meaning := by
  obtain ⟨partitionKey, partition, sort⟩ := condition
  cases sort with
  | none =>
    have drafted : (Condition.equals partitionKey partition).draft .keyCondition = .ok draft := drafted
    exact Condition.expresses_draft plain drafted
  | some asked =>
    obtain ⟨first, isFirst, rest⟩ := bind_eq_ok.1 drafted
    obtain ⟨second, isSecond, rest⟩ := bind_eq_ok.1 rest
    have isFirst : (Condition.equals partitionKey partition).draft .keyCondition = .ok first := isFirst
    have isSecond : (Condition.test asked.1 asked.2.toAttributeTest).draft .keyCondition = .ok second :=
      isSecond
    split at rest
    · next joined run =>
      obtain rfl := Except.ok.inj rest
      obtain ⟨plainFirst, plainSecond⟩ := List.forall_mem_cons.1 plain
      have expressesFirst := Condition.expresses_draft
        (by simpa [Condition.equals, Condition.paths] using plainFirst) isFirst
      have expressesSecond := Condition.expresses_draft
        (by simpa [Condition.paths] using plainSecond) isSecond
      rw [asCondition, Condition.meaning_andOption]
      exact Drafting.succeeds_merge expressesFirst expressesSecond run
    · cases rest

/-- A key condition always tests something. -/
theorem exists_meaning (condition : KeyCondition) :
    ∃ meaning, condition.asCondition.meaning = some meaning := by
  obtain ⟨partitionKey, partition, sort⟩ := condition
  rw [asCondition, Condition.meaning_andOption]
  cases sort with
  | none => exact ⟨_, rfl⟩
  | some asked =>
    obtain ⟨attr, test⟩ := asked
    cases test <;> exact ⟨_, rfl⟩

end KeyCondition

/-! ## Equality tests compile -/

def ExpressionKind.testBindings (kind : ExpressionKind) (name : String) (value : Value) : Bindings where
  names := .ofList [("#" ++ kind.mark ++ name, name)]
  values := .ofList [(kind.valuePlaceholder name "", value)]

theorem ExpressionKind.references_of_isWord (kind : ExpressionKind) {name : String}
    (isWord : IsWord name) : kind.references name = [⟨"#" ++ kind.mark ++ name, name, ""⟩] := by
  rw [references, Path.segments_of_isWord isWord]
  simp [referencesFrom]

theorem ExpressionKind.succeeds_bindPath_of_isWord (kind : ExpressionKind) {name : String}
    (isWord : IsWord name) (values : NameMap Value) :
    Succeeds (kind.bindPath name) { values } (kind.referenceText name)
      { names := .ofList [("#" ++ kind.mark ++ name, name)], values } := by
  unfold bindPath
  rw [kind.references_of_isWord isWord]
  rfl

theorem Drafting.succeeds_compare (kind : ExpressionKind) (reads : kind ≠ .projection) {name : String}
    (isWord : IsWord name) (comparison : Comparison) (value : Value) :
    ∃ draft, Succeeds (compare name comparison value) { kind } () draft ∧
      draft.bindings = kind.testBindings name value := by
  have bindsValue : Succeeds (bindValue name "" value) { kind } (kind.valuePlaceholder name "")
      { kind, bindings := { values := .ofList [(kind.valuePlaceholder name "", value)] } } := by
    refine succeeds_bind.2 ⟨_, _, succeeds_get.2 ⟨rfl, rfl⟩, (actsOn_bind _).succeeds_iff.2 ⟨_, ?_, rfl⟩⟩
    unfold ExpressionKind.bindValue
    rw [if_neg reads]
    rfl
  have bindsName : Succeeds (bindPath name)
      { kind, bindings := { values := .ofList [(kind.valuePlaceholder name "", value)] } }
      (kind.referenceText name) { kind, bindings := kind.testBindings name value } :=
    succeeds_bind.2 ⟨_, _, succeeds_get.2 ⟨rfl, rfl⟩, (actsOn_bind _).succeeds_iff.2
      ⟨_, kind.succeeds_bindPath_of_isWord isWord _, rfl⟩⟩
  refine ⟨_, succeeds_bind.2 ⟨_, _, bindsValue, succeeds_bind.2 ⟨⟨⟩, _, succeeds_modify.2 rfl,
    succeeds_bind.2 ⟨⟨⟩, _, succeeds_bind.2 ⟨_, _, bindsName, succeeds_modify.2 rfl⟩,
      succeeds_modify.2 rfl⟩⟩⟩, rfl⟩

theorem Condition.compile_equals (kind : ExpressionKind) (reads : kind ≠ .projection) {name : String}
    (isWord : IsWord name) (value : Value) :
    ∃ text, (equals name value).compile kind = .ok (some ⟨text, kind.testBindings name value⟩) := by
  obtain ⟨draft, run, bindings_eq⟩ := Drafting.succeeds_compare kind reads isWord .equal value
  have drafted : (equals name value).draft kind = .ok draft := Drafting.build_of_succeeds run
  have plain : ∀ path ∈ (equals name value).paths, Path.IsPlain path := by
    simpa [equals, paths] using Path.isPlain_of_isWord isWord
  have expresses : draft.Expresses (equals name value).meaning := expresses_draft plain drafted
  obtain ⟨expression, compiled_eq, -⟩ := expresses.read
  have text_eq : expression = ⟨draft.text, draft.bindings⟩ := by
    unfold Draft.compiled? at compiled_eq
    split at compiled_eq
    · cases compiled_eq
    · exact (Option.some.inj compiled_eq).symm
  refine ⟨draft.text, ?_⟩
  rw [compile, drafted, ← bindings_eq, ← text_eq, ← compiled_eq]
  rfl

theorem KeyCondition.compile_equals {name : String} (isWord : IsWord name) (value : Value) :
    ∃ text, KeyCondition.compile ⟨name, value, none⟩ =
      .ok (some ⟨text, ExpressionKind.keyCondition.testBindings name value⟩) :=
  Condition.compile_equals .keyCondition (by decide) isWord value

/-- A loop over one element is the step for it. -/
theorem Binding.succeeds_forM_singleton {α : Type} {step : α → Binding Unit} {element : α}
    {before after : Bindings} (run : Succeeds (step element) before ⟨⟩ after) :
    Succeeds ([element].forM step) before ⟨⟩ after :=
  succeeds_bind.2 ⟨⟨⟩, _, run, succeeds_pure.2 ⟨rfl, rfl⟩⟩

/-- The bindings of a test can be taken in where its placeholders stand for nothing yet. -/
theorem Binding.succeeds_absorb_test {kind : ExpressionKind} {name text : String} {value : Value}
    {outcome : Except Error (Option CompiledExpression)}
    (compiles : outcome = .ok (some ⟨text, kind.testBindings name value⟩))
    (before : Bindings) (freeName : before.names.get? ("#" ++ kind.mark ++ name) = none)
    (freeValue : before.values.get? (kind.valuePlaceholder name "") = none) :
    Succeeds (absorbCompiled outcome) before (some text)
      ⟨before.names.insert ("#" ++ kind.mark ++ name) name,
        before.values.insert (kind.valuePlaceholder name "") value⟩ := by
  subst compiles
  have bindsName := succeeds_name_of_free name freeName
  have bindsValue : Succeeds (Binding.value (kind.valuePlaceholder name "") value)
      { before with names := before.names.insert ("#" ++ kind.mark ++ name) name } ⟨⟩ _ :=
    succeeds_value_of_free value freeValue
  exact succeeds_bind.2 ⟨⟨⟩, _, succeeds_bind.2 ⟨⟨⟩, _, succeeds_forM_singleton bindsName,
    succeeds_forM_singleton bindsValue⟩, succeeds_pure.2 ⟨rfl, rfl⟩⟩

/-- The placeholders of a key condition and those of a filter differ in their marks. -/
theorem ExpressionKind.placeholder_ne (sign : String) (name other : String) :
    sign ++ keyCondition.mark ++ name ≠ sign ++ filter.mark ++ other := by
  intro same
  have same := congrArg String.toList same
  simp [mark] at same

theorem ExpressionKind.valuePlaceholder_ne (name other : String) :
    keyCondition.valuePlaceholder name "" ≠ filter.valuePlaceholder other "" := by
  unfold valuePlaceholder
  rw [String.append_empty, String.append_empty]
  exact placeholder_ne ":" (valueKey name) (valueKey other)

namespace Entity

variable {entity : Entity}

/-- A query by attributes succeeds if its partition has a value. -/
theorem exists_queryRequest {attributes : Item} {options : QueryOptions} {part : KeyPart}
    {sortKey : Option String} {value : Value}
    (isKey : entity.queryKey options.index = .ok (part, sortKey)) (isWord : IsWord part.attr)
    (isValue : part.template.interpolate .strict attributes = .ok value)
    (noSort : options.sort = none) (noCondition : options.condition = none)
    (noSelect : options.select = none) :
    ∃ request, entity.queryRequest (.attributes attributes) options = .ok request := by
  obtain ⟨keyText, compilesKey⟩ := KeyCondition.compile_equals isWord value
  obtain ⟨filterText, compilesFilter⟩ := Condition.compile_equals .filter (by decide)
    (by decide : IsWord entityMarker) (.string entity.name)
  have takesKey := Binding.succeeds_absorb_test compilesKey {} rfl rfl
  obtain ⟨bindings, takesFilter⟩ : ∃ bindings, Succeeds
      (Binding.absorbCompiled ((entity.ownItems options.condition).compile .filter)) _
      (some filterText) bindings := by
    rw [noCondition]
    exact ⟨_, Binding.succeeds_absorb_test compilesFilter ⟨_, _⟩
      (NameMap.get?_insert_of_ne ∅ part.attr
        (ExpressionKind.placeholder_ne "#" part.attr entityMarker))
      (NameMap.get?_insert_of_ne ∅ value
        (ExpressionKind.valuePlaceholder_ne part.attr entityMarker))⟩
  have takesProjection : Succeeds
      (Binding.absorbCompiled (projectionOf (options.select.map withMarker))) bindings none bindings := by
    rw [noSelect]
    exact succeeds_pure.2 ⟨rfl, rfl⟩
  have partition : partitionValue part (.attributes attributes) = .ok value := by
    simp only [partitionValue, isValue]
  exact ⟨_, bind_eq_ok.2 ⟨_, isKey, bind_eq_ok.2 ⟨value, partition, bind_eq_ok.2
    ⟨none, by rw [noSort, sortTest], bind_eq_ok.2 ⟨(_, bindings), Binding.collect_of_succeeds
      (succeeds_bind.2 ⟨_, _, takesKey, succeeds_bind.2 ⟨_, _, takesFilter,
        succeeds_bind.2 ⟨_, _, takesProjection, succeeds_pure.2 ⟨rfl, rfl⟩⟩⟩⟩), rfl⟩⟩⟩⟩⟩

end Entity

/-! ## Testing keys -/

/-- A service that puts the value at a path to a test, and finds every scalar equal to itself. -/
structure Service.Compares (service : Service) (passes : SortKeyTest → Value → Bool) : Prop where
  tests : ∀ (item : Item) (path : List PathSegment) (test : SortKeyTest)
    (predicate : Predicate (List PathSegment) Value),
    test.toAttributeTest.predicate? (.path path) = some predicate →
      service.holds item (.test predicate) = (item.follow? path).any (passes test)
  equal : ∀ value : Value, value.isScalar = true → passes (.equal value) value = true

section Compares

variable {service : Service} {passes : SortKeyTest → Value → Bool}

theorem SortKeyTest.exists_predicate (test : SortKeyTest) (path : List PathSegment) :
    ∃ predicate, test.toAttributeTest.predicate? (.path path) = some predicate := by
  cases test <;> exact ⟨_, rfl⟩

theorem Service.Compares.accepts_test (compares : service.Compares passes) (item : Item)
    {name : String} (isWord : IsWord name) (test : SortKeyTest) :
    service.accepts item (Condition.test name test.toAttributeTest).meaning =
      (item.get? name).any (passes test) := by
  obtain ⟨predicate, predicate_eq⟩ := test.exists_predicate [⟨name, ""⟩]
  rw [Condition.meaning, Path.segments_of_isWord isWord, predicate_eq, ← item.follow?_name]
  exact compares.tests item _ test predicate predicate_eq

theorem Service.Compares.accepts_keyCondition (compares : service.Compares passes) (item : Item)
    {condition : KeyCondition} (isWord : ∀ path ∈ condition.paths, IsWord path) :
    service.accepts item condition.asCondition.meaning =
      ((item.get? condition.partitionKey).any (passes (.equal condition.partition)) &&
        condition.sort.all fun asked => (item.get? asked.1).any (passes asked.2)) := by
  obtain ⟨partitionKey, partition, sort⟩ := condition
  obtain ⟨isPartition, isSort⟩ := List.forall_mem_cons.1 isWord
  rw [KeyCondition.asCondition, Condition.meaning_andOption, service.accepts_join]
  congr 1
  · exact compares.accepts_test item isPartition (.equal partition)
  · cases sort with
    | none => rfl
    | some asked =>
      rw [Option.all_some]
      exact compares.accepts_test item (isSort _ List.mem_cons_self) asked.2

end Compares

namespace Entity

variable {entity : Entity}

/-- The key condition of a query is read as it was asked. -/
theorem AsksQuery.reads {partition : Partition} {options : QueryOptions} {request : QueryRequest}
    {part : KeyPart} {sortKey : Option String} {value : Value} {sort : Option (String × SortKeyTest)}
    (asks : entity.AsksQuery partition options request part sortKey value sort)
    (plain : ∀ path ∈ (KeyCondition.mk part.attr value sort).paths, Path.IsPlain path) :
    readCondition request.keyCondition request.bindings =
      (KeyCondition.mk part.attr value sort).asCondition.meaning := by
  obtain ⟨keyCondition, text_eq, takes⟩ := asks.expressions
  obtain ⟨expression, compiles, rfl, within⟩ := (List.forall₂_cons.1 takes.each.2).1
  obtain ⟨draft, drafted, rfl⟩ := map_eq_ok.1 compiles
  obtain ⟨meaning, meaning_eq⟩ := KeyCondition.exists_meaning ⟨part.attr, value, sort⟩
  have expresses := KeyCondition.expresses_draft plain drafted
  rw [meaning_eq] at expresses ⊢
  obtain ⟨compiled, compiled_eq, read⟩ := expresses.read
  rw [text_eq, compiled_eq]
  exact readCondition_within (within compiled compiled_eq) read

/-- A query keeps to the items of the entity that meet the condition of the caller. -/
theorem AsksQuery.meets_filter {partition : Partition} {options : QueryOptions}
    {request : QueryRequest} {part : KeyPart} {sortKey : Option String} {value : Value}
    {sort : Option (String × SortKeyTest)}
    (asks : entity.AsksQuery partition options request part sortKey value sort) {service : Service}
    {passes : SortKeyTest → Value → Bool} (compares : service.Compares passes) (item : Item)
    (plain : ∀ condition ∈ options.condition, ∀ path ∈ condition.paths, Path.IsPlain path) :
    service.meets item request.filter request.bindings =
      ((item.get? entityMarker).any (passes (.equal (.string entity.name))) &&
        service.accepts item (options.condition.bind (·.meaning))) := by
  obtain ⟨keyCondition, -, takes⟩ := asks.expressions
  obtain ⟨expression, compiles, filter_eq, within⟩ :=
    (List.forall₂_cons.1 (List.forall₂_cons.1 takes.each.2).2).1
  have isWord : IsWord entityMarker := by decide
  have plainAll : ∀ path ∈ (entity.ownItems options.condition).paths, Path.IsPlain path :=
    Condition.plain_andOption
      (by simpa [Condition.equals, Condition.paths] using Path.isPlain_of_isWord isWord) plain
  rw [filter_eq, service.meets_compiled item plainAll compiles within, ownItems,
    Condition.meaning_andOption, service.accepts_join]
  congr 1
  exact compares.accepts_test item isWord (.equal (.string entity.name))

end Entity

/-! ## Created items -/

def Table.keysOf? (table : Table) : Option String → Option (String × Option String)
  | none => some (table.partitionKey, table.sortKey)
  | some name => (table.indexKeyAttributes? name).map fun keys => (keys.1, some keys.2)

namespace Entity

variable {entity : Entity}

/-- An item has the attributes of an index, or any item if no index is named.  An index with a
partition of its own must not have been left out for want of a value: the item can have its attributes
all the same, but they were not derived. -/
def Carries (entity : Entity) (attributes item : Item) : Option String → Prop
  | none => True
  | some name => ∃ index, entity.index? name = some index ∧
      (∀ part ∈ index.parts, item.contains part.attr = true) ∧
      (index.partition.isSome → ∀ name ∈ index.names, (attributes.present? name).isSome)

/-- The attributes that queries of an index go by, and the partition that an item is in. -/
structure GoesBy (entity : Entity) (attributes item : Item) (index : Option String) (part : KeyPart)
    (sortKey : Option String) : Prop where
  isKey : entity.queryKey index = .ok (part, sortKey)
  keys : entity.table.keysOf? index = some (part.attr, sortKey)
  partition : part.attr ∈ entity.physicalAttributes
  sort : ∀ attr ∈ sortKey, attr ∈ entity.physicalAttributes
  stored : ∃ value, part.template.interpolate .strict attributes = .ok value ∧
    (part.attr ≠ entityMarker → item.get? part.attr = some value)

section Created

variable {declaration : Declaration} (laysOut : declaration.LaysOut entity)
  (nodup : entity.physicalAttributes.Nodup) {draw : String → Moment} {attributes item : Item}
  (isItem : entity.toPhysical draw attributes = .ok item)
include laysOut nodup isItem

theorem goesBy_table :
    entity.GoesBy (entity.applyDefaults draw attributes) item none entity.key.partition
      entity.table.sortKey := by
  obtain ⟨partition_eq, -, names_eq, -⟩ := Declaration.keyOn_eq_ok laysOut.key
  have isPart : entity.key.partition ∈ entity.key.parts := by simp [Key.parts]
  refine ⟨rfl, by rw [partition_eq, Table.keysOf?], ?_, ?_, get?_toPhysical_of_key nodup isItem isPart⟩
  · exact List.mem_map.2 ⟨_, List.mem_append.2 (.inl isPart), rfl⟩
  · intro attr isSort
    rw [physicalAttributes_eq, names_eq, Table.keyAttributes]
    simp [Option.mem_def.1 isSort]

/-- An index without a partition key of its own goes by that of the table. -/
theorem goesBy_index {layout : IndexLayout} (isLayout : entity.index? layout.name = some layout)
    (notLeftOut : layout.partition.isSome → ∀ name ∈ layout.names,
      ((entity.applyDefaults draw attributes).present? name).isSome) :
    entity.GoesBy (entity.applyDefaults draw attributes) item (some layout.name)
      (layout.partition.getD entity.key.partition) (some layout.sort.attr) := by
  have isIndex : layout ∈ entity.indexes := List.mem_of_find?_eq_some isLayout
  have byTable := goesBy_table laysOut nodup isItem
  have isPhysical : ∀ part ∈ layout.parts, part.attr ∈ entity.physicalAttributes :=
    fun part isPart => List.mem_map.2 ⟨part, mem_parts_of_index isIndex isPart, rfl⟩
  obtain ⟨definition, laysOutIndex⟩ := laysOut.index isIndex
  have keys_eq : entity.table.indexKeyAttributes? layout.name =
      some ((layout.partition.getD entity.key.partition).attr, layout.sort.attr) := by
    have partition_eq : entity.key.partition.attr = entity.table.partitionKey := by
      rw [(Declaration.keyOn_eq_ok laysOut.key).1]
    simp only [Table.indexKeyAttributes?, laysOutIndex.defined, ← laysOutIndex.partition,
      Option.map_some, ← partition_eq, laysOutIndex.sort]
    cases layout.partition <;> rfl
  constructor
  case isKey =>
    simp only [queryKey, keys_eq, isLayout]
    rfl
  case keys => simp only [Table.keysOf?, keys_eq, Option.map_some]
  case partition =>
    cases own : layout.partition with
    | none => exact byTable.partition
    | some part => exact isPhysical part (by simp [IndexLayout.parts, own])
  case sort =>
    rintro attr ⟨⟩
    exact isPhysical layout.sort (by simp [IndexLayout.parts])
  case stored =>
    cases own : layout.partition with
    | none => exact byTable.stored
    | some part =>
      have isPart : part ∈ layout.parts := by simp [IndexLayout.parts, own]
      rcases toPhysical_index_cases nodup isItem isIndex with
        written | ⟨-, ⟨name, isName, isMissing⟩, -⟩
      · obtain ⟨value, isValue, value_eq⟩ := written part isPart
        exact ⟨value, Template.interpolate_eq_ok (fun _ _ => rfl) isValue, value_eq⟩
      · -- an index that was left out misses some name
        have isPresent := notLeftOut (by rw [own, Option.isSome_some]) name isName
        rw [isMissing] at isPresent
        cases isPresent

theorem exists_goesBy {index : Option String}
    (carries : entity.Carries (entity.applyDefaults draw attributes) item index) :
    ∃ part sortKey,
      entity.GoesBy (entity.applyDefaults draw attributes) item index part sortKey := by
  cases index with
  | none => exact ⟨_, _, goesBy_table laysOut nodup isItem⟩
  | some name =>
    obtain ⟨layout, isLayout, -, notLeftOut⟩ := carries
    obtain rfl : layout.name = name := by simpa using List.find?_some isLayout
    exact ⟨_, _, goesBy_index laysOut nodup isItem isLayout notLeftOut⟩

end Created

/-- What queries of an index by some attributes ask for, and whether an item meets it.  In the place
of the marker an item has the name of the entity, whatever its partition is. -/
structure Retrieves (entity : Entity) (service : Service) (passes : SortKeyTest → Value → Bool)
    (attributes item : Item) (index : Option String) (partition : String) (sort : Option String) :
    Prop where
  /-- The partition can be queried, and the item is found there. -/
  plain : ∀ options : QueryOptions, options.index = index → options.sort = none →
    options.condition = none → options.select = none →
      ∃ request value, entity.queryRequest (.attributes attributes) options = .ok request ∧
        request.table = entity.table.name ∧ request.index = index ∧
        readCondition request.keyCondition request.bindings =
          (KeyCondition.mk partition value none).asCondition.meaning ∧
        (partition ≠ entityMarker →
          service.meets item (some request.keyCondition) request.bindings = true) ∧
        service.meets item request.filter request.bindings = true
  /-- A query that also tests the sort key finds the item exactly if its sort key passes. -/
  sorted : ∀ (options : QueryOptions) (test : SortKeyTest) (request : QueryRequest),
    options.index = index → options.sort = some test →
      entity.queryRequest (.attributes attributes) options = .ok request →
      ∃ attr value, sort = some attr ∧
        readCondition request.keyCondition request.bindings =
          (KeyCondition.mk partition value (some (attr, test))).asCondition.meaning ∧
        (partition ≠ entityMarker →
          service.meets item (some request.keyCondition) request.bindings =
            (item.get? attr).any (passes test))

section Created

variable {service : Service} {passes : SortKeyTest → Value → Bool} {attributes item : Item}
  {index : Option String} {part : KeyPart} {sortKey : Option String}

/-- A query by attributes asks for the partition that the item is in. -/
theorem GoesBy.asks (goesBy : entity.GoesBy attributes item index part sortKey)
    (words : ∀ name ∈ entity.physicalAttributes, IsWord name)
    (compares : service.Compares passes) {options : QueryOptions} (isIndex : options.index = index)
    {request : QueryRequest}
    (asked : entity.queryRequest (.attributes attributes) options = .ok request) :
    ∃ value sort, entity.AsksQuery (.attributes attributes) options request part sortKey value sort ∧
      readCondition request.keyCondition request.bindings =
        (KeyCondition.mk part.attr value sort).asCondition.meaning ∧
      (part.attr ≠ entityMarker →
        service.meets item (some request.keyCondition) request.bindings =
          sort.all fun asked => (item.get? asked.1).any (passes asked.2)) := by
  obtain ⟨part', sortKey', value, sort, asks⟩ := queryRequest_eq_ok asked
  obtain ⟨rfl, rfl⟩ : part = part' ∧ sortKey = sortKey' := by
    have isKey := asks.isKey
    rw [isIndex, goesBy.isKey] at isKey
    exact Prod.mk.inj (Except.ok.inj isKey)
  obtain ⟨stored, isValue, stored_eq⟩ := goesBy.stored
  obtain rfl : stored = value := by
    have isPartition := asks.isValue
    simp only [partitionValue, isValue] at isPartition
    exact Except.ok.inj isPartition
  have isWord : ∀ path ∈ (KeyCondition.mk part.attr stored sort).paths, IsWord path := by
    intro path isPath
    rcases List.mem_cons.1 isPath with rfl | isSortPath
    · exact words _ goesBy.partition
    · obtain ⟨tested, isTested, rfl⟩ := List.mem_map.1 isSortPath
      exact words _ (goesBy.sort _ (sortKey_of_sortTest asks.isSort (Option.mem_toList.1 isTested)))
  have read := asks.reads fun path isPath => Path.isPlain_of_isWord (isWord path isPath)
  refine ⟨stored, sort, asks, read, fun notMarker => ?_⟩
  obtain ⟨meaning, meaning_eq⟩ := KeyCondition.exists_meaning ⟨part.attr, stored, sort⟩
  have accepted := compares.accepts_keyCondition item isWord
  rw [stored_eq notMarker, Option.any_some, compares.equal _ (Template.isScalar_of_interpolate isValue),
    Bool.true_and, meaning_eq] at accepted
  rw [Service.meets, read, meaning_eq]
  exact accepted

/-- Every entity finds the items it creates.  Queries of a table or of an index by the attributes of
an item are about its partition and its sort key there; the item meets them as long as the marker is
not the partition key. -/
theorem finds_created {declaration : Declaration} {defaultTable : Option Table}
    (compiled : declaration.compile defaultTable = .ok entity)
    (nodup : entity.physicalAttributes.Nodup)
    (words : ∀ name ∈ entity.physicalAttributes, IsWord name)
    (compares : service.Compares passes) {draw : String → Moment}
    (isItem : entity.toPhysical draw attributes = .ok item)
    (carries : entity.Carries (entity.applyDefaults draw attributes) item index) :
    ∃ partition sort, entity.table.keysOf? index = some (partition, sort) ∧
      entity.Retrieves service passes (entity.applyDefaults draw attributes) item index partition
        sort := by
  have laysOut := Declaration.laysOut_of_compile compiled
  obtain ⟨part, sortKey, goesBy⟩ := exists_goesBy laysOut nodup isItem carries
  refine ⟨part.attr, sortKey, goesBy.keys, ?plain, ?sorted⟩
  case plain =>
    intro options isIndex noSort noCondition noSelect
    obtain ⟨_, isValue, -⟩ := goesBy.stored
    obtain ⟨request, asked⟩ := exists_queryRequest (isIndex ▸ goesBy.isKey) (words _ goesBy.partition)
      isValue noSort noCondition noSelect
    obtain ⟨value, sort, asks, read, meets_eq⟩ := goesBy.asks words compares isIndex asked
    obtain rfl : none = sort := by
      have isSort := asks.isSort
      rw [noSort] at isSort
      exact Except.ok.inj isSort
    have isOwn := asks.meets_filter compares item (by simp [noCondition])
    rw [noCondition, get?_toPhysical_marker isItem] at isOwn
    refine ⟨request, value, asked, asks.table, asks.index.trans isIndex, read, meets_eq, ?_⟩
    rw [isOwn, Option.any_some, compares.equal _ rfl]
    rfl
  case sorted =>
    intro options test request isIndex isTest asked
    obtain ⟨value, sort, asks, read, meets_eq⟩ := goesBy.asks words compares isIndex asked
    have isSort := asks.isSort
    rw [isTest] at isSort
    cases sortKey with
    | none => cases isSort
    | some attr =>
      obtain rfl := Except.ok.inj isSort
      exact ⟨attr, value, rfl, read, meets_eq⟩

end Created

end Entity

/-! ## Players of a team -/

def rosterTable (partitionKey : String) : Table := .ofIndexes
  [("GSI1", ⟨.globalIndex, some partitionKey, "GSI1SK", true⟩)]

def rosterDeclaration (partitionKey : String) : Declaration where
  name := "PLAYER"
  table := some (rosterTable partitionKey)
  key := ⟨.text "PLAYER#\x7b\x7bid\x7d\x7d", none⟩
  indexes := [("GSI1", ⟨.globalIndex, some (.text "TEAM#\x7b\x7bteam\x7d\x7d"),
    .text "NAME#\x7b\x7bname\x7d\x7d", none⟩)]
  attributes := [{ name := "id", type := .string }, { name := "name", type := .string },
    { name := "team", type := .string }]

def rosterEntity (partitionKey : String) : Entity where
  name := "PLAYER"
  table := rosterTable partitionKey
  attributes := (rosterDeclaration partitionKey).attributes
  key := ⟨⟨"PK", .text "PLAYER#\x7b\x7bid\x7d\x7d"⟩, none⟩
  indexes := [⟨"GSI1", .globalIndex, some ⟨partitionKey, .text "TEAM#\x7b\x7bteam\x7d\x7d"⟩,
    ⟨"GSI1SK", .text "NAME#\x7b\x7bname\x7d\x7d"⟩, true⟩]
  uniques := []

theorem compile_rosterDeclaration (partitionKey : String) :
    (rosterDeclaration partitionKey).compile none = .ok (rosterEntity partitionKey) := by
  with_unfolding_all rfl

/-- How texts compare; other values are only equal to themselves. -/
def SortKeyTest.passes : SortKeyTest → Value → Bool
  | .equal asked, found => found = asked
  | .less (.string asked), .string found => found < asked
  | .lessOrEqual (.string asked), .string found => found ≤ asked
  | .greater (.string asked), .string found => asked < found
  | .greaterOrEqual (.string asked), .string found => asked ≤ found
  | .beginsWith (.string asked), .string found => asked.toList.isPrefixOf found.toList
  | .between (.string low) (.string high), .string found => low ≤ found && found ≤ high
  | _, _ => false

def Grammar.Predicate.sortKeyTest? :
    Predicate (List PathSegment) Value → Option (List PathSegment × SortKeyTest)
  | .compare (.path path) .equal (.value value) => some (path, .equal value)
  | .compare (.path path) .less (.value value) => some (path, .less value)
  | .compare (.path path) .lessOrEqual (.value value) => some (path, .lessOrEqual value)
  | .compare (.path path) .greater (.value value) => some (path, .greater value)
  | .compare (.path path) .greaterOrEqual (.value value) => some (path, .greaterOrEqual value)
  | .call .beginsWith (.path path) (some (.value value)) => some (path, .beginsWith value)
  | .between (.path path) (.value low) (.value high) => some (path, .between low high)
  | _ => none

def Service.comparing : Service :=
  { (default : Service) with
    judge := fun predicate item => predicate.sortKeyTest?.any fun (path, test) =>
      (item.follow? path).any test.passes }

theorem Service.compares_comparing : Service.comparing.Compares SortKeyTest.passes where
  tests item path test predicate predicate_eq := by
    cases test <;> (obtain rfl := Option.some.inj predicate_eq; rfl)
  equal value _ := by simp [SortKeyTest.passes]

def createPlayer (partitionKey : String) (attributes : Item) : Except Error Item :=
  (rosterEntity partitionKey).toPhysical (fun _ => ⟨0, fun _ => 0⟩) attributes

def queryTeam (partitionKey : String) (attributes : Item) : Except Error QueryRequest :=
  (rosterEntity partitionKey).queryRequest
    (.attributes ((rosterEntity partitionKey).applyDefaults (fun _ => ⟨0, fun _ => 0⟩) attributes))
    { index := some "GSI1" }

def redPlayer : Item := .ofList [("id", .string "1"), ("name", .string "ann"), ("team", .string "red")]

/-- A player of a team is found in the team. -/
theorem retrieves_redPlayer :
    ∃ item, createPlayer "GSI1PK" redPlayer = .ok item ∧
      (rosterEntity "GSI1PK").Retrieves Service.comparing SortKeyTest.passes redPlayer item
        (some "GSI1") "GSI1PK" (some "GSI1SK") := by
  have creates : (createPlayer "GSI1PK" redPlayer).toOption.any (fun item =>
      ∀ part ∈ (rosterEntity "GSI1PK").indexes.flatMap (·.parts), item.contains part.attr) = true := by
    decide +kernel
  have filled_eq : (rosterEntity "GSI1PK").applyDefaults (fun _ => ⟨0, fun _ => 0⟩) redPlayer =
      redPlayer := by decide +kernel
  cases created : createPlayer "GSI1PK" redPlayer with
  | error error => simp [created, Except.toOption] at creates
  | ok item =>
    simp only [created, Except.toOption, Option.any_some, decide_eq_true_eq] at creates
    have carries : (rosterEntity "GSI1PK").Carries
        ((rosterEntity "GSI1PK").applyDefaults (fun _ => ⟨0, fun _ => 0⟩) redPlayer) item
        (some "GSI1") := by
      refine ⟨_, rfl, fun part isPart => creates part (by simpa [rosterEntity] using isPart), ?_⟩
      rw [filled_eq]
      decide +kernel
    obtain ⟨partition, sort, keys_eq, retrieves⟩ := Entity.finds_created
      (compile_rosterDeclaration "GSI1PK") (by decide) (by decide) Service.compares_comparing created
      carries
    obtain ⟨rfl, rfl⟩ : "GSI1PK" = partition ∧ some "GSI1SK" = sort :=
      Prod.mk.inj (Option.some.inj (keys_eq ▸ rfl))
    exact ⟨item, rfl, filled_eq ▸ retrieves⟩

def broughtPlayer : Item :=
  .ofList [("GSI1PK", .string "TEAM#red"), ("GSI1SK", .string "NAME#ann"), ("id", .string "1"),
    ("name", .string "ann")]

/-- A player is not found in the team if the index has the marker for its partition key.  Who brings
values for the index has all its attributes, but without a team there is nothing to query. -/
theorem not_found_players :
    (∀ partitionKey ∈ [entityMarker, "GSI1PK"],
      (rosterDeclaration partitionKey).compile none = .ok (rosterEntity partitionKey) ∧
        (rosterEntity partitionKey).physicalAttributes.Nodup ∧
        ∀ name ∈ entityMarker :: (rosterEntity partitionKey).physicalAttributes,
          IsWord name ∧ name ∉ (rosterEntity partitionKey).attributeNames) ∧
    (∃ item request, createPlayer entityMarker redPlayer = .ok item ∧
      (∀ part ∈ (rosterEntity entityMarker).indexes.flatMap (·.parts), item.contains part.attr = true) ∧
      queryTeam entityMarker redPlayer = .ok request ∧
      Service.comparing.meets item (some request.keyCondition) request.bindings = false) ∧
    ∃ item, createPlayer "GSI1PK" broughtPlayer = .ok item ∧
      (∀ part ∈ (rosterEntity "GSI1PK").indexes.flatMap (·.parts), item.contains part.attr = true) ∧
      queryTeam "GSI1PK" broughtPlayer =
        .error (.unresolved "TEAM#\x7b\x7bteam\x7d\x7d" "team") := by
  refine ⟨?_, ?_, ?_⟩
  · intro partitionKey isKey
    refine ⟨compile_rosterDeclaration partitionKey, ?_⟩
    revert partitionKey
    decide +kernel
  · have runs : (createPlayer entityMarker redPlayer).toOption.any (fun item =>
        (∀ part ∈ (rosterEntity entityMarker).indexes.flatMap (·.parts), item.contains part.attr) ∧
        (queryTeam entityMarker redPlayer).toOption.any fun request =>
          !Service.comparing.meets item (some request.keyCondition) request.bindings) = true := by
      decide +kernel
    cases created : createPlayer entityMarker redPlayer with
    | error error => simp [created, Except.toOption] at runs
    | ok item =>
      cases asked : queryTeam entityMarker redPlayer with
      | error error => simp [created, asked, Except.toOption] at runs
      | ok request =>
        simp only [created, asked, Except.toOption, Option.any_some, decide_eq_true_eq,
          Bool.not_eq_true'] at runs
        exact ⟨item, request, rfl, runs.1, rfl, runs.2⟩
  · have runs : (createPlayer "GSI1PK" broughtPlayer).toOption.any (fun item =>
        ∀ part ∈ (rosterEntity "GSI1PK").indexes.flatMap (·.parts), item.contains part.attr) = true := by
      decide +kernel
    cases created : createPlayer "GSI1PK" broughtPlayer with
    | error error => simp [created, Except.toOption] at runs
    | ok item =>
      simp only [created, Except.toOption, Option.any_some, decide_eq_true_eq] at runs
      exact ⟨item, rfl, runs, by decide +kernel⟩

end SingleTable
