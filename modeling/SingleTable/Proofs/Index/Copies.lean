import SingleTable.Proofs.Index.Agreement

/-!
# Indexes that copy an attribute

A part of an index may be a copy of an attribute.  A copy never asks for its index to be left out: that
the attribute has no value is an error, unless a text before it has no value either
(`KeyPart.hasScalar_of_skipped`).  So an item that is created has the attribute, and from then on only
an update that clears it by name takes it away.  That is an error too, or, if the index is sparse, it
removes the index as a whole (`Entity.hasScalar_of_copied`).
-/

namespace SingleTable

open Grammar

theorem Value.isNull_of_isScalar {value : Value} (isScalar : value.isScalar = true) :
    value.isNull = false := by
  cases value <;> first | rfl | cases isScalar

theorem Value.isDocument_of_isScalar {value : Value} (isScalar : value.isScalar = true) :
    value.isDocument = false := by
  cases value <;> first | rfl | cases isScalar

theorem UpdateAction.clears_set_of_isScalar {value : Value} (isScalar : value.isScalar = true) :
    (UpdateAction.set value).clears = false :=
  Value.isNull_of_isScalar isScalar

/-- An attribute has a value that a key can hold. -/
def Item.HasScalar (item : Item) (name : String) : Prop :=
  ∃ value, item.present? name = some value ∧ value.isScalar = true

theorem Item.not_hasScalar {item : Item} {name : String} (isMissing : item.present? name = none) :
    ¬ item.HasScalar name := by
  rintro ⟨value, isPresent, -⟩
  rw [isMissing] at isPresent
  cases isPresent

/-! ## Deriving a copy -/

theorem Template.interpolate_copyOf_ne_skip {mode : Completeness} {attributes : Item} {attr name : String} :
    (copyOf attr).interpolate mode attributes ≠ .error (.sparseSkip name) := by
  intro skipped
  simp only [interpolate] at skipped
  split at skipped
  · cases skipped
  · split at skipped <;> cases skipped

theorem KeyPart.mem_names_of_copies {part : KeyPart} {attr : String}
    (copies : part.template = .copyOf attr) : attr ∈ part.names := by
  simp [KeyPart.names, Template.names, copies]

/-- An index with a copy of an attribute is left out only if a text before the copy has no value, or
for the sake of what is behind it. -/
theorem KeyPart.hasScalar_of_skipped {mode : Completeness} {attributes : Item}
    {before later : List KeyPart} {part : KeyPart} {attr name : String}
    (copies : part.template = .copyOf attr)
    (skipped : resolveAll mode attributes (before ++ part :: later) = .error (.sparseSkip name)) :
    attributes.HasScalar attr ∨ ∃ earlier ∈ before, earlier.template.isAlias = false ∧
      ∃ missing ∈ earlier.names, attributes.present? missing = none := by
  induction before with
  | nil =>
    rcases bind_eq_error.1 skipped with skipped | ⟨value, isValue, -⟩
    · rw [copies] at skipped
      exact absurd skipped Template.interpolate_copyOf_ne_skip
    · rw [copies] at isValue
      exact .inl (Template.present_of_interpolate isValue (List.mem_singleton_self attr))
  | cons first before inductionHypothesis =>
    rcases bind_eq_error.1 skipped with skipped | ⟨value, -, rest⟩
    · obtain ⟨-, isName, isMissing⟩ := Template.missing_of_interpolate skipped
      refine .inr ⟨first, List.mem_cons_self, ?_, name, isName, isMissing⟩
      cases template_eq : first.template with
      | text source => rfl
      | copyOf other =>
        rw [template_eq] at skipped
        exact absurd skipped Template.interpolate_copyOf_ne_skip
    · rcases bind_eq_error.1 rest with skipped | ⟨others, -, answer⟩
      · exact (inductionHypothesis skipped).imp_right fun ⟨earlier, isEarlier, lacks⟩ =>
          ⟨earlier, List.mem_cons_of_mem _ isEarlier, lacks⟩
      · cases answer

namespace Entity

variable {entity : Entity} {declaration : Declaration} {index : IndexLayout} {part : KeyPart}
  {before later : List KeyPart} {attr : String}

/-! ## Creating -/

/-- An item that is written has the attributes that its indexes copy. -/
theorem hasScalar_toPhysical (laysOut : declaration.LaysOut entity)
    (nodup : (entity.physicalAttributes ++ entity.attributeNames).Nodup)
    (isIndex : index ∈ entity.indexes) (parts_eq : index.parts = before ++ part :: later)
    (copies : part.template = .copyOf attr) {draw : String → Moment} {attributes item : Item}
    (isItem : entity.toPhysical draw attributes = .ok item)
    (complete : index.sparse = true → ∀ earlier ∈ before, earlier.template.isAlias = false →
      ∀ name ∈ earlier.names, (entity.applyDefaults draw attributes).present? name ≠ none) :
    item.HasScalar attr := by
  obtain ⟨nodupPhysical, -, apart⟩ := List.nodup_append.1 nodup
  have isPart : part ∈ index.parts := by simp [parts_eq]
  have isName := KeyPart.mem_names_of_copies copies
  have given : (entity.applyDefaults draw attributes).HasScalar attr := by
    obtain ⟨key, indexed, -, isIndexed, -⟩ := toPhysical_eq_ok isItem
    rw [physicalAttributes_eq] at nodupPhysical
    rcases addIndexes_cases isIndexed (List.nodup_append.1 nodupPhysical).2.1 isIndex with
      ⟨values, resolved, -⟩ | ⟨⟨missing, skipped⟩, -⟩
    · exact KeyPart.present_of_resolveAll resolved isPart isName
    · have isSparse := IndexLayout.sparse_of_mode (KeyPart.missing_of_resolveAll skipped).1
      rw [parts_eq] at skipped
      rcases KeyPart.hasScalar_of_skipped copies skipped with
        given | ⟨earlier, isEarlier, isText, name, isName, isMissing⟩
      · exact given
      · exact absurd isMissing (complete isSparse earlier isEarlier isText name isName)
  have isDeclared := laysOut.mem_attributeNames (mem_parts_of_index isIndex isPart) isName
  by_cases isMarker : attr = entityMarker
  · subst isMarker
    exact ⟨.string entity.name, by simp [Item.present?, get?_toPhysical_marker isItem, Value.isNull], rfl⟩
  · have notPhysical : attr ∉ entity.physicalAttributes := fun isPhysical =>
      apart _ isPhysical _ isDeclared rfl
    simpa only [Item.HasScalar, Item.present?,
      get?_toPhysical_of_not_physical isItem notPhysical isMarker] using given

end Entity

/-! ## Updating -/

/-- A scalar stays one if the attribute is only assigned scalars by name: nothing can be changed inside
it. -/
theorem Service.hasScalar_of_execute {service : Service} {actions : List (String × UpdateAction)}
    {item after : Item} {attr : String}
    (executed : service.execute (byClause (actionChanges actions)) item = some after)
    (assigns : ∀ action, (attr, action) ∈ actions → ∃ value, action = .set value ∧ value.isScalar = true)
    (holds : item.HasScalar attr) : after.HasScalar attr := by
  by_cases onTop : ∃ change ∈ byClause (actionChanges actions), change.root = attr ∧ change.isTop = true
  · -- a change of the attribute as a whole is the assignment of a scalar
    obtain ⟨change, isChange, rfl, isTop⟩ := onTop
    have result := changeTop_of_execute executed isChange isTop
    rw [mem_byClause, actionChanges, List.mem_flatMap] at isChange
    obtain ⟨⟨path, action⟩, isAction, isChange⟩ := isChange
    have path_eq := UpdateAction.path_of_isTop isChange isTop
    rw [← UpdateAction.root_of_mem_changes isChange] at path_eq
    obtain ⟨value, rfl, isScalar⟩ := assigns action (path_eq ▸ isAction)
    obtain rfl := List.mem_singleton.1 isChange
    have stored : after.get? _ = some value := (Option.some.inj result).symm
    exact ⟨value, by simp [Item.present?, stored, Value.isNull_of_isScalar isScalar], isScalar⟩
  · obtain ⟨value, isPresent, isScalar⟩ := holds
    have stored : item.get? attr = some value := (Option.filter_eq_some_iff.1 isPresent).1
    have unchanged : after.get? attr = item.get? attr := by
      refine get?_of_execute_of_inside executed ?_ ?_
      · intro change isChange root_eq
        exact Bool.eq_false_iff.2 fun isTop => onTop ⟨change, isChange, root_eq, isTop⟩
      · intro other isOther
        rw [stored] at isOther
        obtain rfl := Option.some.inj isOther
        exact Value.isDocument_of_isScalar isScalar
    exact ⟨value, by rw [Item.present?, unchanged, ← Item.present?, isPresent], isScalar⟩

namespace Entity

variable {entity : Entity} {declaration : Declaration} {index : IndexLayout} {part : KeyPart}
  {before later : List KeyPart} {attr : String}

theorem impactOnAll_each {body : UpdateBody} {sparse : Bool} {references : List (KeyPart × String)}
    {impact : IndexImpact} (isImpact : entity.impactOnAll body sparse references = .ok impact) :
    ∀ reference ∈ references, ∃ own, entity.impactOn body sparse reference.1 reference.2 = .ok own := by
  induction references generalizing impact with
  | nil => simp
  | cons first references inductionHypothesis =>
    obtain ⟨own, isOwn, rest⟩ := bind_eq_ok.1 isImpact
    obtain ⟨others, areOthers, -⟩ := bind_eq_ok.1 rest
    exact List.forall_mem_cons.2 ⟨⟨own, isOwn⟩, inductionHypothesis areOthers⟩

/-- What an update does to an attribute that an index refers to is one of the things it may do to the
index. -/
theorem explains_of_affected {body : UpdateBody} {context : Item} {changes : KeyChanges}
    (affected : entity.affectedIndexes body context = .ok changes) (isIndex : index ∈ entity.indexes)
    (isPart : part ∈ index.parts) {name : String} (isName : name ∈ part.names)
    (isScalar : (entity.attribute? name).any (·.type.isScalar) = true) :
    ∃ impact, Explains body index.sparse [name] impact := by
  obtain ⟨own, isOwn, -⟩ := (allIndexChanges_each affected).1 index isIndex
  obtain ⟨impact, isImpact, -⟩ := bind_eq_ok.1 isOwn
  obtain ⟨impact, isImpact⟩ := impactOnAll_each isImpact (part, name)
    (List.mem_flatMap.2 ⟨part, isPart, List.mem_map.2 ⟨name, isName, rfl⟩⟩)
  exact ⟨impact, impactOn_explains isScalar isImpact⟩

/-- An update clears an attribute by name. -/
def UpdateCall.Clears (call : UpdateCall) (attr : String) : Prop :=
  ∃ action, call.body.get? attr = some action ∧ action.clears = true

/-- All paths that an update writes are plain. -/
structure UpdateCall.IsPlain (entity : Entity) (call : UpdateCall) : Prop where
  body : ∀ entry ∈ (entity.withGenerated call.draw call.body).actions, Path.IsPlain entry.1
  indexes : ∀ name ∈ entity.indexAttributes, Path.IsPlain name

/-- All paths of an update are plain, and it does not clear an attribute that a sparse index copies. -/
structure UpdateCall.Keeps (entity : Entity) (index : IndexLayout) (attr : String) (call : UpdateCall) :
    Prop where
  plain : call.IsPlain entity
  sparing : index.sparse = true → ¬ call.Clears attr

/-- Values that are made anew clear nothing. -/
theorem UpdateCall.clears_iff (entity : Entity) {call : UpdateCall} : call.Clears attr ↔
    ∃ action, (entity.withGenerated call.draw call.body).get? attr = some action ∧
      action.clears = true := by
  constructor
  · rintro ⟨action, found, clears⟩
    exact ⟨action, UpdateBody.get?_of_mem
      (mem_withGenerated_of_mem call.draw (UpdateBody.mem_of_get? found)), clears⟩
  · rintro ⟨action, found, clears⟩
    rcases mem_withGenerated (UpdateBody.mem_of_get? found) with
      isEntry | ⟨other, -, rule, -, -, -, same⟩
    · exact ⟨action, UpdateBody.get?_of_mem isEntry, clears⟩
    · obtain ⟨rfl, rfl⟩ := Prod.mk.inj same
      obtain ⟨strategy, onUpdate⟩ := rule
      cases strategy <;> cases clears

section Updates

variable (laysOut : declaration.LaysOut entity)
  (nodup : (entity.physicalAttributes ++ entity.attributeNames).Nodup)
  (isIndex : index ∈ entity.indexes) (isPart : part ∈ index.parts)
  (copies : part.template = .copyOf attr) {call : UpdateCall}
include laysOut nodup isIndex isPart copies

/-- What is sent assigns a copied attribute nothing but scalars, or it clears it and the index is
sparse. -/
theorem assigns_or_clears {changes : KeyChanges}
    (affected : entity.affectedIndexes (entity.withGenerated call.draw call.body)
      (call.options.context.union call.attributes) = .ok changes) :
    (∀ action, (attr, action) ∈ (entity.withGenerated call.draw call.body).actions →
      ∃ value, action = .set value ∧ value.isScalar = true) ∨
      index.sparse = true ∧ call.Clears attr := by
  have isName := KeyPart.mem_names_of_copies copies
  have areScalar := laysOut.isScalar_of_index (List.nodup_append.1 nodup).2.1 isIndex
  obtain ⟨impact, explains⟩ := explains_of_affected affected isIndex isPart isName
    (areScalar attr (IndexLayout.mem_names_of_part isPart isName))
  cases impact with
  | untouched =>
    refine .inl fun action isEntry => ?_
    have unnamed := explains attr (List.mem_singleton_self attr)
    rw [UpdateBody.get?_of_mem isEntry] at unnamed
    cases unnamed
  | cleared =>
    obtain ⟨isSparse, name, isAttr, action, found, clears⟩ := explains
    obtain rfl := List.mem_singleton.1 isAttr
    exact .inr ⟨isSparse, (UpdateCall.clears_iff entity).2 ⟨action, found, clears⟩⟩
  | changed =>
    refine .inl fun action isEntry => ?_
    rcases explains attr (List.mem_singleton_self attr) with unnamed | ⟨value, found, isScalar⟩
    · rw [UpdateBody.get?_of_mem isEntry] at unnamed
      cases unnamed
    · rw [UpdateBody.get?_of_mem isEntry] at found
      exact ⟨value, Option.some.inj found, isScalar⟩

/-- An update that clears a copied attribute is an error, unless the index is sparse. -/
theorem write_eq_error_of_clears (clears : call.Clears attr) (notSparse : index.sparse = false) :
    ∃ error, call.write entity = .error error := by
  cases written : call.write entity with
  | error error => exact ⟨error, rfl⟩
  | ok write =>
    obtain ⟨request, changes, changed, writes⟩ := updateWrite_eq_ok written
    rcases assigns_or_clears laysOut nodup isIndex isPart copies writes.affected with
      assigns | ⟨isSparse, -⟩
    · obtain ⟨action, found, clears⟩ := (UpdateCall.clears_iff entity).1 clears
      obtain ⟨value, rfl, isScalar⟩ := assigns action (UpdateBody.mem_of_get? found)
      rw [UpdateAction.clears_set_of_isScalar isScalar] at clears
      cases clears
    · rw [notSparse] at isSparse
      cases isSparse

/-- An update that does not clear a copied attribute keeps it. -/
theorem hasScalar_perform (keeps : call.Keeps entity index attr) {service : Service}
    {item after : Item} (performed : service.perform entity call item = some after)
    (holds : item.HasScalar attr) : after.HasScalar attr := by
  obtain ⟨changes, affected, executed⟩ := exists_of_perform keeps.plain.body performed
  have ofIndexes : ∀ action ∈ changes.actions, action.1 ∈ entity.indexAttributes :=
    fun action isAction => mem_indexAttributes_of_affected affected isAction
  have executed := executed fun action isAction => keeps.plain.indexes _ (ofIndexes action isAction)
  refine Service.hasScalar_of_execute executed (fun action isEntry => ?_) holds
  rcases List.mem_append.1 isEntry with isEntry | isChange
  · rcases assigns_or_clears laysOut nodup isIndex isPart copies affected with
      assigns | ⟨isSparse, clears⟩
    · exact assigns action isEntry
    · exact absurd clears (keeps.sparing isSparse)
  · have isName := KeyPart.mem_names_of_copies copies
    have isDeclared := laysOut.mem_attributeNames (mem_parts_of_index isIndex isPart) isName
    exact absurd rfl ((List.nodup_append.1 nodup).2.2 _ (mem_physical_of_index (ofIndexes _ isChange)) _
      isDeclared)

/-- For an update that clears a copied attribute all parts of the index are removed. -/
theorem removes_of_clears {changes : KeyChanges}
    (affected : entity.affectedIndexes (entity.withGenerated call.draw call.body)
      (call.options.context.union call.attributes) = .ok changes)
    (clears : call.Clears attr) {other : KeyPart} (isOther : other ∈ index.parts) :
    (other.attr, .remove) ∈ changes.actions := by
  obtain ⟨action, found, clears⟩ := (UpdateCall.clears_iff entity).1 clears
  have isName : attr ∈ index.names :=
    IndexLayout.mem_names_of_part isPart (KeyPart.mem_names_of_copies copies)
  have areScalar := laysOut.isScalar_of_index (List.nodup_append.1 nodup).2.1 isIndex
  obtain ⟨own, isOwn, subset⟩ := (allIndexChanges_each affected).1 index isIndex
  refine subset _ ?_
  rcases indexChanges_cases areScalar isOwn with ⟨-, untouched⟩ | ⟨rfl, -⟩ | ⟨values, -, -, changed⟩
  · rw [untouched attr isName] at found
    cases found
  · exact List.mem_append.2 (.inr (List.mem_map.2
      ⟨other.attr, List.mem_map.2 ⟨other, isOther, rfl⟩, rfl⟩))
  · rcases changed attr isName with unnamed | ⟨value, assigned, isScalar⟩
    · rw [unnamed] at found
      cases found
    · rw [assigned] at found
      obtain rfl := Option.some.inj found
      rw [UpdateAction.clears_set_of_isScalar isScalar] at clears
      cases clears

/-- An update that clears a copied attribute removes the index as a whole. -/
theorem get?_of_clears (plain : call.IsPlain entity) (clears : call.Clears attr) {service : Service}
    {item after : Item} (performed : service.perform entity call item = some after)
    {other : KeyPart} (isOther : other ∈ index.parts) (isWord : IsWord other.attr) :
    after.get? other.attr = none := by
  obtain ⟨changes, affected, executed⟩ := exists_of_perform plain.body performed
  have executed := executed fun action isAction =>
    plain.indexes _ (mem_indexAttributes_of_affected affected isAction)
  have isRemoved := removes_of_clears laysOut nodup isIndex isPart copies affected clears isOther
  exact Service.get?_of_remove executed isWord (List.mem_append.2 (.inr isRemoved))

end Updates

/-! ## Runs -/

/-- What an item can become by updates of its entity that are permitted, in any order.  The service may
behave differently each time, and an update that fails changes nothing. -/
inductive Undergoes (entity : Entity) (permitted : UpdateCall → Prop) (first : Item) : Item → Prop where
  | start : Undergoes entity permitted first first
  | update {item : Item} (service : Service) (call : UpdateCall)
      (earlier : Undergoes entity permitted first item) (isPermitted : permitted call) :
      Undergoes entity permitted first ((service.perform entity call item).getD item)

theorem Undergoes.perform {permitted : UpdateCall → Prop} {first item after : Item} {service : Service}
    {call : UpdateCall} (earlier : entity.Undergoes permitted first item) (isPermitted : permitted call)
    (performed : service.perform entity call item = some after) :
    entity.Undergoes permitted first after := by
  have step := earlier.update service call isPermitted
  rwa [performed, Option.getD_some] at step

/-- After a create and any updates that do not clear it, an attribute that an index copies has a value,
provided that a sparse index was not left out for a text before the copy.  An update that clears it is
an error; if the index is sparse, it removes the index as a whole. -/
theorem hasScalar_of_copied {defaultTable : Option Table}
    (compiled : declaration.compile defaultTable = .ok entity)
    (nodup : (entity.physicalAttributes ++ entity.attributeNames).Nodup)
    (isIndex : index ∈ entity.indexes) (parts_eq : index.parts = before ++ part :: later)
    (copies : part.template = .copyOf attr) :
    (∀ draw attributes options put claims,
      entity.createOperations draw attributes options = .ok (put, claims) →
      (index.sparse = true → ∀ earlier ∈ before, earlier.template.isAlias = false →
        ∀ name ∈ earlier.names, (entity.applyDefaults draw attributes).present? name ≠ none) →
      ∀ item, entity.Undergoes (UpdateCall.Keeps entity index attr) put.item item →
        item.HasScalar attr) ∧
    ∀ call : UpdateCall, call.Clears attr →
      (index.sparse = false → ∃ error, call.write entity = .error error) ∧
      (call.IsPlain entity → ∀ (service : Service) (item after : Item),
        service.perform entity call item = some after →
        ∀ other ∈ index.parts, IsWord other.attr → after.get? other.attr = none) := by
  have laysOut := Declaration.laysOut_of_compile compiled
  have isPart : part ∈ index.parts := by simp [parts_eq]
  constructor
  · intro draw attributes options put claims created complete item undergoes
    obtain ⟨stored, isStored, rest⟩ := bind_eq_ok.1 created
    obtain ⟨⟨condition, bindings⟩, -, rest⟩ := bind_eq_ok.1 rest
    obtain ⟨records, -, rest⟩ := bind_eq_ok.1 rest
    obtain ⟨claimed, -, answer⟩ := bind_eq_ok.1 rest
    obtain ⟨rfl, rfl⟩ := Prod.mk.inj (Except.ok.inj answer)
    induction undergoes with
    | start => exact hasScalar_toPhysical laysOut nodup isIndex parts_eq copies isStored complete
    | @update item service call _ isPermitted holds =>
      cases performed : service.perform entity call item with
      | none => exact holds
      | some after =>
        exact hasScalar_perform laysOut nodup isIndex isPart copies isPermitted performed holds
  · intro call clears
    exact ⟨write_eq_error_of_clears laysOut nodup isIndex isPart copies clears,
      fun plain _ _ _ performed _ isOther isWord =>
        get?_of_clears laysOut nodup isIndex isPart copies plain clears performed isOther isWord⟩

end Entity

/-! ## Players ranked within their teams -/

def rankedTable (sparse : Bool) : Table := .ofIndexes
  [("GSI1", ⟨.globalIndex, some "GSI1PK", "GSI1SK", sparse⟩)]

def rankedDeclaration (sparse : Bool) : Declaration where
  name := "PLAYER"
  table := some (rankedTable sparse)
  key := ⟨.text "PLAYER#\x7b\x7bid\x7d\x7d", none⟩
  indexes := [("GSI1", ⟨.globalIndex, some (.text "TEAM#\x7b\x7bteam\x7d\x7d"), .copyOf "rank", none⟩)]
  attributes := [{ name := "id", type := .string }, { name := "notes", type := .list },
    { name := "rank", type := .number }, { name := "team", type := .string }]

def rankedIndex (sparse : Bool) : IndexLayout :=
  ⟨"GSI1", .globalIndex, some ⟨"GSI1PK", .text "TEAM#\x7b\x7bteam\x7d\x7d"⟩, ⟨"GSI1SK", .copyOf "rank"⟩,
    sparse⟩

def rankedEntity (sparse : Bool) : Entity where
  name := "PLAYER"
  table := rankedTable sparse
  attributes := (rankedDeclaration sparse).attributes
  key := ⟨⟨"PK", .text "PLAYER#\x7b\x7bid\x7d\x7d"⟩, none⟩
  indexes := [rankedIndex sparse]
  uniques := []

theorem parts_rankedIndex (sparse : Bool) : (rankedIndex sparse).parts =
    [⟨"GSI1PK", .text "TEAM#\x7b\x7bteam\x7d\x7d"⟩] ++ ⟨"GSI1SK", .copyOf "rank"⟩ :: [] := rfl

theorem compile_rankedDeclaration (sparse : Bool) :
    (rankedDeclaration sparse).compile none = .ok (rankedEntity sparse) := by
  cases sparse <;> with_unfolding_all rfl

theorem nodup_rankedEntity (sparse : Bool) :
    ((rankedEntity sparse).physicalAttributes ++ (rankedEntity sparse).attributeNames).Nodup := by
  cases sparse <;> decide

def rankedPut (sparse : Bool) (attributes : Item) : Except Error (PutRequest × List WriteOperation) :=
  (rankedEntity sparse).createOperations (fun _ => ⟨0, fun _ => 0⟩) attributes {}

def rankedPlayer : Item :=
  .ofList [("id", .string "1"), ("notes", .list [.string "tall"]), ("rank", .number "7"),
    ("team", .string "red")]

def changePlayer (actions : List (String × UpdateAction)) : Entity.UpdateCall where
  draw := fun _ => ⟨0, fun _ => 0⟩
  attributes := .ofList [("id", .string "1"), ("team", .string "red")]
  body := .ofList actions
  options := {}

theorem isPlain_changePlayer (sparse : Bool) (action : UpdateAction) :
    (changePlayer [("rank", action)]).IsPlain (rankedEntity sparse) where
  body := by
    intro entry isEntry
    obtain rfl : entry = ("rank", action) := by
      simpa [Entity.withGenerated, rankedEntity, rankedDeclaration, changePlayer, UpdateBody.ofList,
        UpdateBody.pushAll, UpdateBody.push, UpdateBody.pushAction] using isEntry
    have isWord : IsWord "rank" := by decide
    exact Path.isPlain_of_isWord isWord
  indexes := by
    intro name isName
    have isWord : ∀ name ∈ (rankedEntity sparse).indexAttributes, IsWord name := by
      cases sparse <;> decide
    exact Path.isPlain_of_isWord (isWord name isName)

/-- A player who gets another rank keeps one.  Without a rank a player leaves the index, or cannot be
updated so if all players are in it. -/
theorem hasScalar_after_promotion :
    ∃ put claims promoted retired, rankedPut true rankedPlayer = .ok (put, claims) ∧
      Service.perform default (rankedEntity true) (changePlayer [("rank", .set (.number "9"))]) put.item =
        some promoted ∧
      Service.perform default (rankedEntity true) (changePlayer [("rank", .remove)]) promoted =
        some retired ∧
      promoted.HasScalar "rank" ∧ retired.get? "GSI1PK" = none ∧ retired.get? "GSI1SK" = none ∧
      ∃ error, (changePlayer [("rank", .remove)]).write (rankedEntity false) = .error error := by
  have runs : (rankedPut true rankedPlayer).toOption.any (fun created =>
      (Service.perform default (rankedEntity true) (changePlayer [("rank", .set (.number "9"))])
          created.1.item).any fun promoted =>
        (Service.perform default (rankedEntity true) (changePlayer [("rank", .remove)])
          promoted).isSome) = true := by
    decide +kernel
  have clears : (changePlayer [("rank", .remove)]).Clears "rank" := ⟨.remove, rfl, rfl⟩
  have keeps : (changePlayer [("rank", .set (.number "9"))]).Keeps (rankedEntity true) (rankedIndex true)
      "rank" := by
    refine ⟨isPlain_changePlayer true _, ?_⟩
    rintro - ⟨action, found, isClearing⟩
    obtain rfl : UpdateAction.set (.number "9") = action := Option.some.inj found
    cases isClearing
  have copied (sparse : Bool) := Entity.hasScalar_of_copied (compile_rankedDeclaration sparse)
    (nodup_rankedEntity sparse) List.mem_cons_self (parts_rankedIndex sparse) rfl
  obtain ⟨⟨put, claims⟩, written, runs⟩ := exists_of_any runs
  obtain ⟨promoted, performed, isRetired⟩ := (Option.any_eq_true _ _).1 runs
  obtain ⟨retired, performedLast⟩ := Option.isSome_iff_exists.1 isRetired
  have left := ((copied true).2 _ clears).2 (isPlain_changePlayer true _) _ _ _ performedLast
  refine ⟨put, claims, promoted, retired, written, performed, performedLast, ?_,
    left ⟨"GSI1PK", _⟩ List.mem_cons_self (by decide),
    left ⟨"GSI1SK", _⟩ (List.mem_cons_of_mem _ List.mem_cons_self) (by decide),
    ((copied false).2 _ clears).1 rfl⟩
  refine (copied true).1 _ _ _ put claims written ?_ promoted (.perform .start keeps performed)
  intro _ earlier isEarlier _ name isName
  obtain rfl := List.mem_singleton.1 isEarlier
  obtain rfl : name = "team" := by
    have names_eq : KeyPart.names ⟨"GSI1PK", .text "TEAM#\x7b\x7bteam\x7d\x7d"⟩ = ["team"] := by
      decide +kernel
    rwa [names_eq, List.mem_singleton] at isName
  decide +kernel

def LosesRank (sparse : Bool) (service : Service) (call : Entity.UpdateCall) : Prop :=
  ∃ put claims after, rankedPut sparse rankedPlayer = .ok (put, claims) ∧ call.TellsTruth put.item ∧
    service.perform (rankedEntity sparse) call put.item = some after ∧ ¬ after.HasScalar "rank"

theorem losesRank_of_runs {sparse : Bool} {service : Service} {call : Entity.UpdateCall}
    (runs : (rankedPut sparse rankedPlayer).toOption.any (fun created =>
      decide (∀ told ∈ [call.options.context, call.attributes], ∀ entry ∈ told.entries,
        created.1.item.get? entry.1 = some entry.2) &&
      (service.perform (rankedEntity sparse) call created.1.item).any fun after =>
        after.present? "rank" = none) = true) : LosesRank sparse service call := by
  obtain ⟨⟨put, claims⟩, written, runs⟩ := exists_of_any runs
  simp only [Bool.and_eq_true, decide_eq_true_eq, Option.any_eq_true] at runs
  obtain ⟨stored, after, performed, isMissing⟩ := runs
  exact ⟨put, claims, after, written, Entity.UpdateCall.tellsTruth_of_stored stored, performed,
    Item.not_hasScalar isMissing⟩

def inertService : Service := { (default : Service) with inside := fun _ _ document => some document }

/-- A player without a team needs no rank.  One who has a rank loses it without an error if it is cleared
and the index is sparse, and whatever the index is if a path holds more than a path: what follows a
bracket is written as it is. -/
theorem not_hasScalar_rankedEntity :
    (∀ sparse, (rankedDeclaration sparse).compile none = .ok (rankedEntity sparse)) ∧
      (∀ sparse, ((rankedEntity sparse).physicalAttributes ++ (rankedEntity sparse).attributeNames).Nodup) ∧
      (∃ put claims, rankedPut true (.single "id" (.string "1")) = .ok (put, claims) ∧
        ¬ put.item.HasScalar "rank") ∧
      LosesRank true default (changePlayer [("rank", .remove)]) ∧
      LosesRank false inertService
        (changePlayer [("notes[0], #UE_notes_rank", .remove), ("notes[1].rank", .remove)]) := by
  refine ⟨compile_rankedDeclaration, nodup_rankedEntity, ?_, losesRank_of_runs (by decide +kernel),
    losesRank_of_runs (by decide +kernel)⟩
  have runs : (rankedPut true (.single "id" (.string "1"))).toOption.any
      (fun created => created.1.item.present? "rank" = none) = true := by
    decide +kernel
  obtain ⟨⟨put, claims⟩, written, isMissing⟩ := exists_of_any runs
  exact ⟨put, claims, written, Item.not_hasScalar (of_decide_eq_true isMissing)⟩

end SingleTable
