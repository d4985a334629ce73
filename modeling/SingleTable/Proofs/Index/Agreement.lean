import SingleTable.Proofs.Index.Impact

/-!
# Indexes always show the attributes

The parts of an index are values derived from attributes, stored beside them.  They agree with
the attributes when the item is created, and every update keeps it so, whether it changes the
index, clears it or leaves it alone (`Entity.indexes_agree`).

An update does not know the item: it derives an index from the values it assigns and from those
its caller tells.  All that is asked of the caller is that what is told is true.
-/

namespace SingleTable

open Grammar

/-! ## Agreement -/

/-- An index shows the attributes of an item: all its parts if every name it refers to has a
value, and else none, which only a sparse index allows. -/
structure IndexLayout.Agrees (index : IndexLayout) (item : Item) : Prop where
  full : (∀ name ∈ index.names, (item.present? name).isSome) → ∀ part ∈ index.parts,
    ∃ value, part.template.interpolate .strict item = .ok value ∧ item.get? part.attr = some value
  skipped : (∃ name ∈ index.names, item.present? name = none) →
    index.sparse = true ∧ ∀ part ∈ index.parts, item.get? part.attr = none

namespace IndexLayout

variable {index : IndexLayout} {attributes item : Item}

/-- An index agrees with an item that stores the values of its parts. -/
theorem agrees_of_stored (mode : Completeness) (attributes : Item)
    (stored : ∀ part ∈ index.parts, ∃ value,
      part.template.interpolate mode attributes = .ok value ∧ item.get? part.attr = some value)
    (same : ∀ name ∈ index.names, attributes.present? name = item.present? name) :
    index.Agrees item := by
  constructor
  · intro _ part isPart
    obtain ⟨value, isValue, value_eq⟩ := stored part isPart
    refine ⟨value, ?_, value_eq⟩
    exact Template.interpolate_eq_ok
      (fun name isName => same name (mem_names_of_part isPart isName)) isValue
  · rintro ⟨name, isName, isMissing⟩
    obtain ⟨part, isPart, isPartName⟩ := List.mem_flatMap.1 isName
    obtain ⟨_, isValue, -⟩ := stored part isPart
    obtain ⟨value, isPresent, -⟩ := Template.present_of_interpolate isValue isPartName
    rw [same name isName, isMissing] at isPresent
    cases isPresent

/-- In an index that agrees with an item, names that all have values have scalar ones. -/
theorem Agrees.isScalar (agrees : index.Agrees item)
    (allPresent : ∀ name ∈ index.names, (item.present? name).isSome) {name : String}
    (isName : name ∈ index.names) {value : Value} (isPresent : item.present? name = some value) :
    value.isScalar = true := by
  obtain ⟨part, isPart, isName⟩ := List.mem_flatMap.1 isName
  obtain ⟨_, isValue, -⟩ := agrees.full allPresent part isPart
  obtain ⟨found, found_eq, isScalar⟩ := Template.present_of_interpolate isValue isName
  rw [isPresent] at found_eq
  obtain rfl := Option.some.inj found_eq
  exact isScalar

end IndexLayout

namespace Entity

variable {entity : Entity} {declaration : Declaration}

/-! ## Creating -/

theorem nodup_indexAttributes (wellNamed : entity.WellNamed) : entity.indexAttributes.Nodup := by
  have nodup := wellNamed.nodup_physical
  rw [physicalAttributes_eq] at nodup
  exact (List.nodup_append.1 nodup).2.1

theorem mem_physical_of_index {attr : String} (isIndex : attr ∈ entity.indexAttributes) :
    attr ∈ entity.physicalAttributes := by
  rw [physicalAttributes_eq]
  exact List.mem_append.2 (.inr isIndex)

theorem mem_indexAttributes {index : IndexLayout} (isIndex : index ∈ entity.indexes)
    {part : KeyPart} (isPart : part ∈ index.parts) : part.attr ∈ entity.indexAttributes :=
  List.mem_map.2 ⟨part, List.mem_flatMap.2 ⟨index, isIndex, isPart⟩, rfl⟩

theorem mem_attributeNames_of_index (laysOut : declaration.LaysOut entity) {index : IndexLayout}
    (isIndex : index ∈ entity.indexes) {name : String} (isName : name ∈ index.names) :
    name ∈ entity.attributeNames := by
  obtain ⟨part, isPart, isName⟩ := List.mem_flatMap.1 isName
  exact laysOut.mem_attributeNames (mem_parts_of_index isIndex isPart) isName

/-- The indexes of a new item agree with it, if the attributes it is made from have no value
under the parts of an index that is left out. -/
theorem agrees_toPhysical (laysOut : declaration.LaysOut entity) (wellNamed : entity.WellNamed)
    {draw : String → Moment} {attributes item : Item}
    (isItem : entity.toPhysical draw attributes = .ok item)
    {index : IndexLayout} (isIndex : index ∈ entity.indexes)
    (free : (∃ name ∈ index.names, item.present? name = none) →
      ∀ part ∈ index.parts, attributes.present? part.attr = none) : index.Agrees item := by
  -- templates are filled before the keys are added, but adding keys changes no declared attribute
  have same : ∀ name ∈ index.names,
      (entity.applyDefaults draw attributes).present? name = item.present? name := by
    intro name isName
    have isDeclared := mem_attributeNames_of_index laysOut isIndex isName
    simp only [Item.present?, get?_toPhysical_of_attribute wellNamed isItem isDeclared]
  have isPhysical : ∀ part ∈ index.parts, part.attr ∈ entity.physicalAttributes := fun part isPart =>
    mem_physical_of_index (mem_indexAttributes isIndex isPart)
  have notMarker : ∀ part ∈ index.parts, part.attr ≠ entityMarker := fun part isPart =>
    (wellNamed.marker_ne_physical (isPhysical part isPart)).symm
  rcases toPhysical_index_cases wellNamed.nodup_physical isItem isIndex with
    stored | ⟨isSparse, ⟨name, isName, isMissing⟩, unchanged⟩
  · refine IndexLayout.agrees_of_stored index.mode _ (fun part isPart => ?_) same
    obtain ⟨value, isValue, value_eq⟩ := stored part isPart
    exact ⟨value, isValue, value_eq (notMarker part isPart)⟩
  · rw [same name isName] at isMissing
    constructor
    · intro allPresent
      have isPresent := allPresent name isName
      rw [isMissing] at isPresent
      cases isPresent
    · intro leftOut
      refine ⟨isSparse, fun part isPart => ?_⟩
      have notDeclared : part.attr ∉ entity.attributeNames := fun isDeclared =>
        wellNamed.physical_ne_attribute (isPhysical part isPart) isDeclared rfl
      rw [unchanged part isPart (notMarker part isPart), get?_applyDefaults_of_not_mem notDeclared]
      exact free leftOut part isPart

/-! ## Updating -/

section Step

variable {service : Service} {body : UpdateBody} {changes : KeyChanges} {item after : Item}
  (wellNamed : entity.WellNamed) (declared : body.Declared entity)
  (ofIndexes : ∀ action ∈ changes.actions, action.1 ∈ entity.indexAttributes)
  (executed : service.execute (byClause (actionChanges (body.actions ++ changes.actions))) item =
    some after)
include wellNamed executed

include declared ofIndexes in
theorem get?_of_unaffected {attr : String} (isAttr : attr ∈ entity.indexAttributes)
    (unaffected : ∀ action, (attr, action) ∉ changes.actions) : after.get? attr = item.get? attr := by
  apply Service.get?_of_execute_of_untouched executed
  intro change isChange root_eq
  rw [mem_byClause, actionChanges, List.mem_flatMap] at isChange
  obtain ⟨⟨path, action⟩, isAction, isChange⟩ := isChange
  rw [UpdateAction.root_of_mem_changes isChange] at root_eq
  rcases List.mem_append.1 isAction with isAction | isAction
  · exact wellNamed.physical_ne_attribute (mem_physical_of_index isAttr) (declared _ isAction).2
      root_eq.symm
  · have isWord := wellNamed.isWord_physical (mem_physical_of_index (ofIndexes _ isAction))
    obtain rfl : path = attr := by rw [← root_eq, Path.top_of_isWord isWord]
    exact unaffected action isAction

include ofIndexes in
theorem present?_of_unnamed {name : String} (isDeclared : name ∈ entity.attributeNames)
    (notNamed : body.get? name = none)
    (isScalar : ∀ value, item.present? name = some value → value.isScalar = true) :
    after.present? name = item.present? name := by
  have unnamed : ∀ action ∈ body.actions ++ changes.actions, action.1 ≠ name := by
    intro action isAction
    rcases List.mem_append.1 isAction with isAction | isAction
    · exact UpdateBody.ne_of_get?_eq_none notNamed action isAction
    · exact wellNamed.physical_ne_attribute (mem_physical_of_index (ofIndexes action isAction))
        isDeclared
  have noDocument : ∀ value, item.get? name = some value → value.isDocument = false := by
    intro value value_eq
    cases isNull : value.isNull with
    | true => cases value <;> first | rfl | cases isNull
    | false =>
      have isPresent : item.present? name = some value := by
        simp [Item.present?, value_eq, isNull]
      have scalar := isScalar value isPresent
      cases value <;> first | rfl | cases scalar
  simp only [Item.present?, Service.get?_of_unnamed executed unnamed noDocument]

include declared ofIndexes in
theorem agrees_of_untouched {index : IndexLayout} (isIndex : index ∈ entity.indexes)
    (namesDeclared : ∀ name ∈ index.names, name ∈ entity.attributeNames)
    (agrees : index.Agrees item) (untouched : Explains body index.sparse index.names .untouched)
    (unaffected : ∀ part ∈ index.parts, ∀ action, (part.attr, action) ∉ changes.actions) :
    index.Agrees after := by
  have unchanged : ∀ part ∈ index.parts, after.get? part.attr = item.get? part.attr :=
    fun part isPart => get?_of_unaffected wellNamed declared ofIndexes executed
      (mem_indexAttributes isIndex isPart) (unaffected part isPart)
  by_cases allPresent : ∀ name ∈ index.names, (item.present? name).isSome
  · -- the index is full, so its names are scalars, and a scalar that no action names is left alone
    have same : ∀ name ∈ index.names, item.present? name = after.present? name := by
      intro name isName
      exact (present?_of_unnamed wellNamed ofIndexes executed (namesDeclared name isName)
        (untouched name isName) fun value => agrees.isScalar allPresent isName).symm
    constructor
    · intro _ part isPart
      obtain ⟨value, isValue, stored⟩ := agrees.full allPresent part isPart
      refine ⟨value, ?_, by rw [unchanged part isPart, stored]⟩
      exact Template.interpolate_eq_ok
        (fun name isName => same name (IndexLayout.mem_names_of_part isPart isName)) isValue
    · rintro ⟨name, isName, isMissing⟩
      have isPresent := allPresent name isName
      rw [same name isName, isMissing] at isPresent
      cases isPresent
  · -- a value that is missing cannot come from inside another one
    push Not at allPresent
    obtain ⟨name, isName, isMissing⟩ := allPresent
    have isMissing : item.present? name = none := by simpa using isMissing
    have stillMissing : after.present? name = none := by
      rw [present?_of_unnamed wellNamed ofIndexes executed (namesDeclared name isName)
        (untouched name isName) (by simp [isMissing]), isMissing]
    obtain ⟨isSparse, allAbsent⟩ := agrees.skipped ⟨name, isName, isMissing⟩
    constructor
    · intro allPresent
      have isPresent := allPresent name isName
      rw [stillMissing] at isPresent
      cases isPresent
    · intro _
      exact ⟨isSparse, fun part isPart => by rw [unchanged part isPart, allAbsent part isPart]⟩

/-- An index is left out when one of its names is cleared. -/
theorem agrees_of_cleared {index : IndexLayout} (isIndex : index ∈ entity.indexes)
    (namesDeclared : ∀ name ∈ index.names, name ∈ entity.attributeNames)
    (cleared : Explains body index.sparse index.names .cleared)
    (removed : ∀ part ∈ index.parts, (part.attr, .remove) ∈ changes.actions) :
    index.Agrees after := by
  obtain ⟨isSparse, name, isName, action, found, clears⟩ := cleared
  have isWord := wellNamed.isWord_attribute (namesDeclared name isName)
  have isMissing : after.present? name = none := Service.present?_of_clears executed isWord
    (List.mem_append_left _ (UpdateBody.mem_of_get? found)) clears
  constructor
  · intro allPresent
    have isPresent := allPresent name isName
    rw [isMissing] at isPresent
    cases isPresent
  · intro _
    refine ⟨isSparse, ?_⟩
    intro part isPart
    have isWord := wellNamed.isWord_physical
      (mem_physical_of_index (mem_indexAttributes isIndex isPart))
    exact Service.get?_of_remove executed isWord (List.mem_append.2 (.inr (removed part isPart)))

include ofIndexes in
/-- An index is derived anew from what the update assigns and what its caller tells. -/
theorem agrees_of_changed {context : Item}
    (truth : ∀ name value, context.present? name = some value → item.present? name = some value)
    {index : IndexLayout}
    (namesDeclared : ∀ name ∈ index.names, name ∈ entity.attributeNames)
    (changed : Explains body index.sparse index.names .changed) {values : List (String × Value)}
    (resolved : KeyPart.resolveAll .strict (knownValues body context) index.parts = .ok values)
    (assigned : ∀ entry ∈ values, (entry.1, .set entry.2) ∈ changes.actions) :
    index.Agrees after := by
  refine IndexLayout.agrees_of_stored .strict (knownValues body context) (fun part isPart => ?_)
    (fun name isName => ?_)
  · obtain ⟨value, isValue, isEntry⟩ := KeyPart.exists_of_resolveAll resolved isPart
    have isAction := assigned _ isEntry
    have isWord := wellNamed.isWord_physical (mem_physical_of_index (ofIndexes _ isAction))
    exact ⟨value, isValue,
      Service.get?_of_set executed isWord (List.mem_append.2 (.inr isAction))⟩
  · obtain ⟨part, isPart, isPartName⟩ := List.mem_flatMap.1 isName
    obtain ⟨value, isPresent, isScalar⟩ := KeyPart.present_of_resolveAll resolved isPart isPartName
    have isDeclared := namesDeclared name isName
    -- a name that the update does not assign is told by the caller, who tells the truth
    rcases changed name isName with notNamed | ⟨new, found, newScalar⟩
    · have known : context.present? name = some value := by
        simpa only [Item.present?, get?_knownValues, notNamed, Option.bind_none, Option.none_or]
          using isPresent
      have stored := truth name value known
      rw [isPresent, present?_of_unnamed wellNamed ofIndexes executed isDeclared notNamed,
        stored]
      intro other isOther
      rw [stored] at isOther
      exact Option.some.inj isOther ▸ isScalar
    · have isAction := List.mem_append.2 (.inl (UpdateBody.mem_of_get? found) :
        (name, UpdateAction.set new) ∈ body.actions ∨ (name, .set new) ∈ changes.actions)
      have isWord := wellNamed.isWord_attribute isDeclared
      simp only [Item.present?, get?_knownValues, found, Option.bind_some, UpdateAction.literal?,
        newScalar, if_true, Option.some_or, Service.get?_of_set executed isWord isAction]

end Step

theorem UpdateCall.TellsTruth.union {call : UpdateCall} {item : Item} (truth : call.TellsTruth item)
    {name : String} {value : Value}
    (told : Item.present? (call.options.context.union call.attributes) name = some value) :
    item.present? name = some value := by
  simp only [Item.present?, NameMap.get?_union] at told
  cases own : call.attributes.get? name with
  | some found =>
    rw [own, Option.some_or] at told
    rw [← truth call.attributes (by simp) name (by simp [NameMap.contains, own]), Item.present?, own]
    exact told
  | none =>
    rw [own, Option.none_or] at told
    cases other : call.options.context.get? name with
    | none =>
      rw [other] at told
      cases told
    | some found =>
      rw [other] at told
      rw [← truth call.options.context (by simp) name (by simp [NameMap.contains, other]),
        Item.present?, other]
      exact told

/-- An update keeps every index in agreement with the item. -/
theorem agrees_perform (laysOut : declaration.LaysOut entity) (wellNamed : entity.WellNamed)
    {service : Service} {call : UpdateCall} (declared : call.body.Declared entity)
    {item after : Item} (truth : call.TellsTruth item)
    (agrees : ∀ index ∈ entity.indexes, index.Agrees item)
    (performed : service.perform entity call item = some after) :
    ∀ index ∈ entity.indexes, index.Agrees after := by
  have declared := declared_withGenerated wellNamed call.draw declared
  obtain ⟨changes, affected, executed⟩ :=
    exists_of_perform (fun entry isEntry => (declared entry isEntry).1) performed
  have ofIndexes : ∀ action ∈ changes.actions, action.1 ∈ entity.indexAttributes :=
    fun action isAction => mem_indexAttributes_of_affected affected isAction
  have executed := executed fun action isAction => Path.isPlain_of_isWord
    (wellNamed.isWord_physical (mem_physical_of_index (ofIndexes action isAction)))
  intro index isIndex
  have namesDeclared : ∀ name ∈ index.names, name ∈ entity.attributeNames :=
    fun name isName => mem_attributeNames_of_index laysOut isIndex isName
  have areScalar := laysOut.isScalar_of_index wellNamed.nodup_attributes isIndex
  obtain ⟨own, isOwn, own_iff⟩ := affectedIndexes_each (nodup_indexAttributes wellNamed) affected isIndex
  -- attributes of different indexes differ, so what is sent for a part is what this index asked for
  have ownAction : ∀ part ∈ index.parts, ∀ action,
      (part.attr, action) ∈ changes.actions ↔ (part.attr, action) ∈ own.actions :=
    fun part isPart => own_iff part.attr (List.mem_map.2 ⟨part, isPart, rfl⟩)
  rcases indexChanges_cases areScalar isOwn with ⟨rfl, untouched⟩ | ⟨rfl, cleared⟩ |
    ⟨values, rfl, resolved, changed⟩
  · refine agrees_of_untouched wellNamed declared ofIndexes executed isIndex namesDeclared
      (agrees index isIndex) untouched ?_
    intro part isPart action
    rw [ownAction part isPart]
    simp [KeyChanges.actions]
  · refine agrees_of_cleared wellNamed executed isIndex namesDeclared cleared ?_
    intro part isPart
    rw [ownAction part isPart]
    simp only [KeyChanges.actions, List.map_nil, List.nil_append, List.mem_map]
    exact ⟨part.attr, ⟨part, isPart, rfl⟩, rfl⟩
  · refine agrees_of_changed wellNamed ofIndexes executed (fun name value => truth.union)
      namesDeclared changed resolved ?_
    intro entry isEntry
    have isPart : entry.1 ∈ index.parts.map (·.attr) := by
      rw [← KeyPart.names_of_resolveAll resolved]
      exact List.mem_map.2 ⟨entry, isEntry, rfl⟩
    obtain ⟨part, isPart, attr_eq⟩ := List.mem_map.1 isPart
    rw [← attr_eq, ownAction part isPart, attr_eq]
    simp only [KeyChanges.actions, List.map_nil, List.append_nil, List.mem_map]
    exact ⟨entry, isEntry, rfl⟩

/-! ## Runs -/

/-- What an item can become by updates of its entity.  The service may behave differently each
time, and an update that fails changes nothing. -/
inductive Evolves (entity : Entity) : Item → Item → Prop where
  | refl (item : Item) : Evolves entity item item
  | update {first item : Item} (service : Service) (call : UpdateCall)
      (evolves : Evolves entity first item) (declared : call.body.Declared entity)
      (truth : call.TellsTruth item) :
      Evolves entity first ((service.perform entity call item).getD item)

/-- After a create and any updates, every index agrees with the stored attributes.  The next update
changes nothing in the store if it fails. -/
theorem indexes_agree {defaultTable : Option Table}
    (compiled : declaration.compile defaultTable = .ok entity) (wellNamed : entity.WellNamed)
    {draw : String → Moment} {attributes : Item} {options : CreateOptions} {put : PutRequest}
    {claims : List WriteOperation}
    (created : entity.createOperations draw attributes options = .ok (put, claims))
    (free : ∀ index ∈ entity.indexes, (∃ name ∈ index.names, put.item.present? name = none) →
      ∀ part ∈ index.parts, attributes.present? part.attr = none) {item : Item}
    (evolves : entity.Evolves put.item item) :
    (∀ index ∈ entity.indexes, index.Agrees item) ∧
      ∀ (service : Service) (call : UpdateCall) (request : UpdateRequest) (sent : Call) (rows : Rows),
        call.Sends entity item request sent → rows request.key = some item →
          (service.store entity.table sent rows).2 = rows ∨
            ∃ after, service.perform entity call item = some after ∧
              (service.store entity.table sent rows).2 request.key = some after := by
  constructor
  · have laysOut := Declaration.laysOut_of_compile compiled
    obtain ⟨stored, isStored, rest⟩ := bind_eq_ok.1 created
    obtain ⟨⟨condition, bindings⟩, -, rest⟩ := bind_eq_ok.1 rest
    obtain ⟨records, -, rest⟩ := bind_eq_ok.1 rest
    obtain ⟨claimed, -, answer⟩ := bind_eq_ok.1 rest
    obtain ⟨rfl, rfl⟩ := Prod.mk.inj (Except.ok.inj answer)
    induction evolves with
    | refl =>
      intro index isIndex
      exact agrees_toPhysical laysOut wellNamed isStored isIndex (free index isIndex)
    | @update item service call _ declared truth agrees =>
      cases performed : service.perform entity call item with
      | none => exact agrees
      | some after => exact agrees_perform laysOut wellNamed declared truth agrees performed
  · intro service call request sent rows sends isStored
    exact sends.store_cases service isStored

end Entity

/-! ## Users listed by their names -/

def listedTable : Table := .ofIndexes
  [("GSI1", ⟨.globalIndex, some "GSI1PK", "GSI1SK", true⟩)]

def listedDeclaration : Declaration where
  name := "USER"
  table := some listedTable
  key := ⟨.text "USER#\x7b\x7bid\x7d\x7d", none⟩
  indexes := [("GSI1", ⟨.globalIndex, some (.text "\x7b\x7bname\x7d\x7d"), .text "USER", none⟩)]
  attributes := [{ name := "id", type := .string }, { name := "name", type := .string }]

def listedEntity : Entity where
  name := "USER"
  table := listedTable
  attributes := listedDeclaration.attributes
  key := ⟨⟨"PK", .text "USER#\x7b\x7bid\x7d\x7d"⟩, none⟩
  indexes := [⟨"GSI1", .globalIndex, some ⟨"GSI1PK", .text "\x7b\x7bname\x7d\x7d"⟩,
    ⟨"GSI1SK", .text "USER"⟩, true⟩]
  uniques := []

theorem compile_listedDeclaration : listedDeclaration.compile none = .ok listedEntity := by
  with_unfolding_all rfl

theorem wellNamed_listedEntity : listedEntity.WellNamed := ⟨by decide, by decide, by decide⟩

def listedPut (attributes : Item) : Except Error (PutRequest × List WriteOperation) :=
  listedEntity.createOperations (fun _ => ⟨0, fun _ => 0⟩) attributes {}

def rename (action : UpdateAction) : Entity.UpdateCall where
  draw := fun _ => ⟨0, fun _ => 0⟩
  attributes := .single "id" (.string "1")
  body := .ofList [("name", action)]
  options := {}

/-- A user who is renamed is listed by the new name, and no more once it has none. -/
theorem agrees_after_rename :
    ∃ put claims, listedPut (.ofList [("id", .string "1"), ("name", .string "ann")]) =
        .ok (put, claims) ∧
      ∃ named unnamed, Service.perform default listedEntity (rename (.set (.string "bob"))) put.item =
          some named ∧
        Service.perform default listedEntity (rename .remove) named = some unnamed ∧
        named.get? "GSI1PK" = some (.string "bob") ∧ unnamed.get? "GSI1PK" = none ∧
        ∀ index ∈ listedEntity.indexes, index.Agrees unnamed := by
  have runs : (listedPut (.ofList [("id", .string "1"), ("name", .string "ann")])).toOption.any
      (fun created => (Service.perform default listedEntity (rename (.set (.string "bob")))
          created.1.item).any fun named =>
        (Service.perform default listedEntity (rename .remove) named).any fun unnamed =>
          created.1.item.present? "id" = some (.string "1") ∧
            created.1.item.present? "name" = some (.string "ann") ∧
            named.present? "id" = some (.string "1") ∧
            named.get? "GSI1PK" = some (.string "bob") ∧ unnamed.get? "GSI1PK" = none) = true := by
    decide +kernel
  cases written : listedPut (.ofList [("id", .string "1"), ("name", .string "ann")]) with
  | error error => simp [written, Except.toOption] at runs
  | ok created =>
    obtain ⟨put, claims⟩ := created
    simp only [written, Except.toOption, Option.any_some, Option.any_eq_true, decide_eq_true_eq] at runs
    obtain ⟨named, performed, unnamed, performedLast, isUser, isNamed, stillUser, isListed, notListed⟩ :=
      runs
    refine ⟨put, claims, rfl, named, unnamed, performed, performedLast, isListed, notListed, ?_⟩
    have declared : ∀ action, (rename action).body.Declared listedEntity := by
      intro action entry isEntry
      obtain rfl : entry = ("name", action) := by
        simpa [rename, UpdateBody.ofList, UpdateBody.pushAll, UpdateBody.push, UpdateBody.pushAction]
          using isEntry
      have isWord : IsWord "name" := by decide
      exact ⟨Path.isPlain_of_isWord isWord, by rw [Path.top_of_isWord isWord]; decide⟩
    have truth : ∀ action item, item.present? "id" = some (.string "1") →
        (rename action).TellsTruth item := by
      intro action item isUser told isTold name isName
      simp only [rename, List.mem_cons, List.not_mem_nil, or_false] at isTold
      rcases isTold with rfl | rfl
      · cases isName
      · obtain rfl : name = "id" := by
          by_contra differs
          have notGiven : (Item.single "id" (.string "1")).get? name = none := by
            rw [Item.single, NameMap.ofList, NameMap.insertAll, List.foldl_cons, List.foldl_nil,
              NameMap.get?_insert_of_ne _ _ (Ne.symm differs), NameMap.get?_empty]
          rw [NameMap.contains, notGiven] at isName
          cases isName
        rw [isUser]
        decide
    have evolvesNamed := Entity.Evolves.update default (rename (.set (.string "bob")))
      (.refl put.item) (declared _) (truth _ _ isUser)
    rw [performed, Option.getD_some] at evolvesNamed
    have evolves := Entity.Evolves.update default (rename .remove) evolvesNamed (declared _)
      (truth _ _ stillUser)
    rw [performedLast, Option.getD_some] at evolves
    refine (Entity.indexes_agree compile_listedDeclaration wellNamed_listedEntity written ?_ evolves).1
    intro index isIndex leftOut
    obtain rfl := List.mem_singleton.1 isIndex
    obtain ⟨name, isName, isMissing⟩ := leftOut
    obtain rfl : name = "name" := by
      have names_eq : IndexLayout.names ⟨"GSI1", .globalIndex,
          some ⟨"GSI1PK", .text "\x7b\x7bname\x7d\x7d"⟩, ⟨"GSI1SK", .text "USER"⟩, true⟩ = ["name"] := by
        decide +kernel
      rw [names_eq] at isName
      exact List.mem_singleton.1 isName
    rw [isNamed] at isMissing
    cases isMissing

/-- A user without a name that brings a value for the index is listed all the same. -/
theorem not_agrees_of_brought :
    listedDeclaration.compile none = .ok listedEntity ∧ listedEntity.WellNamed ∧
      ∃ put claims, listedPut (.ofList [("GSI1PK", .string "x"), ("id", .string "1")]) =
          .ok (put, claims) ∧
        listedEntity.Evolves put.item put.item ∧
        ¬ ∀ index ∈ listedEntity.indexes, index.Agrees put.item := by
  have brought : (listedPut (.ofList [("GSI1PK", .string "x"), ("id", .string "1")])).toOption.any
      (fun created => created.1.item.present? "name" = none ∧
        created.1.item.get? "GSI1PK" = some (.string "x")) = true := by
    decide +kernel
  cases written : listedPut (.ofList [("GSI1PK", .string "x"), ("id", .string "1")]) with
  | error error => simp [written, Except.toOption] at brought
  | ok created =>
    obtain ⟨put, claims⟩ := created
    simp only [written, Except.toOption, Option.any_some, decide_eq_true_eq] at brought
    refine ⟨compile_listedDeclaration, wellNamed_listedEntity, put, claims, rfl, .refl _, ?_⟩
    intro agrees
    obtain ⟨-, leftOut⟩ := (agrees _ List.mem_cons_self).skipped ⟨"name", by decide +kernel, brought.1⟩
    have isLeftOut := leftOut ⟨"GSI1PK", .text "\x7b\x7bname\x7d\x7d"⟩ (by decide)
    rw [brought.2] at isLeftOut
    cases isLeftOut

end SingleTable
