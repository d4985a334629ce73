import SingleTable.Proofs.Entity.Closure

/-!
# What an update says about the identity of an item

An item is told apart by the key attributes of its table, by the marker, and by what its primary
key is derived from.  The paths that an update changes come from three places: its body, the
attributes that every update makes anew, and the indexes that are derived anew
(`Entity.WritesUpdate.targets_iff`).  The guard looks at one of them, and only at the attributes
that templates refer to, so whether an update leaves the identity alone is up to the others
(`Entity.UpdateCall.sparesIdentity_iff`).
-/

namespace SingleTable

open Grammar

/-! ## The attributes that change -/

/-- Whether every update makes a new value. -/
def Attribute.isRenewed (attr : Attribute) : Bool := attr.generated.any (·.onUpdate)

/-- The tops of the paths that actions write. -/
theorem exists_root_iff {actions : List (String × UpdateAction)} {name : String} :
    (∃ change ∈ byClause (actionChanges actions), change.root = name) ↔
      ∃ entry ∈ actions, entry.2.isIdle = false ∧ Path.top entry.1 = name := by
  simp only [mem_byClause, actionChanges, List.mem_flatMap]
  constructor
  · rintro ⟨change, ⟨⟨path, action⟩, isEntry, isChange⟩, rfl⟩
    refine ⟨_, isEntry, ?_, (UpdateAction.root_of_mem_changes isChange).symm⟩
    rcases action with _ | _ | _ | _ | _ | _ | _ | (_ | _) | _ <;> first | rfl | cases isChange
  · rintro ⟨⟨path, action⟩, isEntry, isActive, rfl⟩
    obtain ⟨change, isChange⟩ : ∃ change, change ∈ action.changes (Path.segments path) := by
      rcases action with _ | _ | _ | _ | _ | _ | _ | (_ | _) | _ <;>
        first | exact ⟨_, List.mem_cons_self⟩ | cases isActive
    exact ⟨change, ⟨_, isEntry, isChange⟩, UpdateAction.root_of_mem_changes isChange⟩

namespace Entity

variable {entity : Entity}

/-- Whether an update that makes some values anew changes an attribute. -/
def Renews (entity : Entity) (body : UpdateBody) (attr : Attribute) : Prop :=
  attr ∈ entity.attributes ∧ attr.isRenewed = true ∧ body.get? attr.name = none

/-- The attributes that an update names, and those it makes anew. -/
def Changes (entity : Entity) (body : UpdateBody) (name : String) : Prop :=
  body.get? name ≠ none ∨ ∃ attr, entity.Renews body attr ∧ attr.name = name

theorem exists_mem_withGenerated {draw : String → Moment} {body : UpdateBody} {attr : Attribute}
    (renews : entity.Renews body attr) :
    ∃ value, (attr.name, .set value) ∈ (entity.withGenerated draw body).actions := by
  obtain ⟨isAttribute, isRenewed, unnamed⟩ := renews
  obtain ⟨rule, rule_eq, onUpdate⟩ := (Option.any_eq_true _ _).1 isRenewed
  obtain ⟨earlier, later, attributes_eq⟩ := List.append_of_mem isAttribute
  -- the value is added in its turn, unless an attribute of the same name had its turn before
  let before := { entity with attributes := earlier }.withGenerated draw body
  have withGenerated_eq : entity.withGenerated draw body =
      { entity with attributes := attr :: later }.withGenerated draw before := by
    simp only [withGenerated, attributes_eq, List.foldl_append, before]
  rw [withGenerated_eq]
  cases found : before.get? attr.name with
  | some action =>
    have isMember := UpdateBody.mem_of_get? found
    rcases mem_withGenerated isMember with inBody | ⟨_, -, _, -, -, -, same⟩
    · rw [UpdateBody.get?_of_mem inBody] at unnamed
      cases unnamed
    · obtain ⟨-, rfl⟩ := Prod.mk.inj same
      exact ⟨_, mem_withGenerated_of_mem draw isMember⟩
  | none =>
    refine ⟨rule.strategy.generate (draw attr.name), ?_⟩
    have added : (attr.name, .set (rule.strategy.generate (draw attr.name))) ∈
        (before.push attr.name (.set (rule.strategy.generate (draw attr.name)))).actions :=
      UpdateBody.mem_pushAction_self
    have step : { entity with attributes := attr :: later }.withGenerated draw before =
        { entity with attributes := later }.withGenerated draw
          (before.push attr.name (.set (rule.strategy.generate (draw attr.name)))) := by
      simp [withGenerated, rule_eq, onUpdate, found]
    rw [step]
    exact mem_withGenerated_of_mem draw added

theorem changes_iff_withGenerated {draw : String → Moment} {body : UpdateBody} {name : String} :
    (entity.withGenerated draw body).get? name ≠ none ↔ entity.Changes body name := by
  have named_iff : ∀ {body : UpdateBody}, body.get? name ≠ none ↔
      ∃ action, (name, action) ∈ body.actions := by
    intro body
    rw [Option.ne_none_iff_exists']
    exact exists_congr fun _ => ⟨UpdateBody.mem_of_get?, UpdateBody.get?_of_mem⟩
  rw [Changes, named_iff, named_iff]
  constructor
  · rintro ⟨action, isMember⟩
    rcases mem_withGenerated isMember with
      inBody | ⟨attr, isAttribute, rule, rule_eq, onUpdate, unnamed, same⟩
    · exact .inl ⟨action, inBody⟩
    · exact .inr ⟨attr, ⟨isAttribute, by simp [Attribute.isRenewed, rule_eq, onUpdate], unnamed⟩,
        (Prod.mk.inj same).1.symm⟩
  · rintro (⟨action, inBody⟩ | ⟨attr, renews, rfl⟩)
    · exact ⟨action, mem_withGenerated_of_mem draw inBody⟩
    · obtain ⟨value, isMember⟩ := exists_mem_withGenerated renews
      exact ⟨_, isMember⟩

/-! ## The indexes that change -/

/-- Whether an index is derived from an attribute of scalar type that changes. -/
def Touches (entity : Entity) (changes : String → Prop) (index : IndexLayout) : Prop :=
  ∃ name ∈ index.names, (entity.attribute? name).any (·.type.isScalar) = true ∧ changes name

theorem impactOn_ne_untouched_iff {body : UpdateBody} {sparse : Bool} {part : KeyPart} {name : String}
    {impact : IndexImpact} (isImpact : entity.impactOn body sparse part name = .ok impact) :
    impact ≠ .untouched ↔
      (entity.attribute? name).any (·.type.isScalar) = true ∧ body.get? name ≠ none := by
  unfold impactOn at isImpact
  split at isImpact
  · next notFound =>
    obtain rfl := Except.ok.inj isImpact
    simp [notFound]
  · next action found =>
    split at isImpact
    · next notScalar =>
      obtain rfl := Except.ok.inj isImpact
      simp_all
    · next isScalar =>
      have isScalar : (entity.attribute? name).any (·.type.isScalar) = true := by simpa using isScalar
      have isChanged : impact ≠ .untouched := by
        rintro rfl
        split at isImpact
        · split at isImpact <;> cases isImpact
        · split at isImpact <;> cases isImpact
      simp [isChanged, isScalar, found]

theorem impactOnAll_ne_untouched_iff {body : UpdateBody} {sparse : Bool}
    {references : List (KeyPart × String)} {impact : IndexImpact}
    (isImpact : entity.impactOnAll body sparse references = .ok impact) :
    impact ≠ .untouched ↔ ∃ name ∈ references.map Prod.snd,
      (entity.attribute? name).any (·.type.isScalar) = true ∧ body.get? name ≠ none := by
  induction references generalizing impact with
  | nil =>
    obtain rfl := Except.ok.inj isImpact
    simp
  | cons reference references inductionHypothesis =>
    obtain ⟨first, isFirst, rest⟩ := bind_eq_ok.1 isImpact
    obtain ⟨others, areOthers, answer⟩ := bind_eq_ok.1 rest
    obtain rfl := Except.ok.inj answer
    have join_iff : first.join others ≠ .untouched ↔ first ≠ .untouched ∨ others ≠ .untouched := by
      cases first <;> cases others <;> simp [IndexImpact.join]
    rw [join_iff, impactOn_ne_untouched_iff isFirst, inductionHypothesis areOthers, List.map_cons,
      List.exists_mem_cons_iff]

/-- An index that is touched changes in all its parts, and one that is not in none. -/
theorem exists_mem_indexChanges_iff {body : UpdateBody} {values : Item} {index : IndexLayout}
    {changes : KeyChanges} (areChanges : entity.indexChanges body values index = .ok changes)
    {attr : String} :
    (∃ action, (attr, action) ∈ changes.actions) ↔
      entity.Touches (body.get? · ≠ none) index ∧ attr ∈ index.parts.map (·.attr) := by
  obtain ⟨impact, isImpact, rest⟩ := bind_eq_ok.1 areChanges
  have touches_iff := impactOnAll_ne_untouched_iff isImpact
  rw [IndexLayout.map_snd_references] at touches_iff
  rw [Touches, ← touches_iff]
  cases impact with
  | untouched =>
    obtain rfl := Except.ok.inj rest
    simp [KeyChanges.actions]
  | cleared =>
    obtain rfl := Except.ok.inj rest
    simp [KeyChanges.actions]
  | changed =>
    dsimp only at rest
    split at rest
    · next set set_eq =>
      obtain rfl := Except.ok.inj rest
      rw [← KeyPart.names_of_resolveAll set_eq]
      simp [KeyChanges.actions]
    · cases rest

/-! ## The targets of an update -/

/-- The tops of the paths that an update changes, by where they come from. -/
inductive UpdateCall.Targets (entity : Entity) (call : UpdateCall) : String → Prop where
  | body {entry : String × UpdateAction} (isEntry : entry ∈ call.body.actions)
      (isActive : entry.2.isIdle = false) : Targets entity call (Path.top entry.1)
  | renewed {attr : Attribute} (renews : entity.Renews call.body attr) :
      Targets entity call (Path.top attr.name)
  | index {index : IndexLayout} (isIndex : index ∈ entity.indexes)
      (touches : entity.Touches (entity.Changes call.body) index)
      {part : KeyPart} (isPart : part ∈ index.parts) : Targets entity call (Path.top part.attr)

theorem KeyChanges.isActive {changes : KeyChanges} {entry : String × UpdateAction}
    (isEntry : entry ∈ changes.actions) : entry.2.isIdle = false := by
  rcases List.mem_append.1 isEntry with isSet | isRemove
  · obtain ⟨_, -, rfl⟩ := List.mem_map.1 isSet
    rfl
  · obtain ⟨_, -, rfl⟩ := List.mem_map.1 isRemove
    rfl

/-- The paths that an update writes are those of its three sources, and no others. -/
theorem WritesUpdate.targets_iff {call : UpdateCall} {write : PendingWrite} {request : UpdateRequest}
    {changes : KeyChanges} {changed : List (String × Option Value)}
    (writes : entity.WritesUpdate call.draw call.attributes call.body call.options write request
      changes changed) {name : String} :
    (∃ change ∈ byClause (actionChanges
        ((entity.withGenerated call.draw call.body).actions ++ changes.actions)),
      change.root = name) ↔ call.Targets entity name := by
  obtain ⟨each, origin⟩ := allIndexChanges_each writes.affected
  rw [exists_root_iff]
  constructor
  · rintro ⟨entry, isEntry, isActive, rfl⟩
    rcases List.mem_append.1 isEntry with isEntry | isChange
    · -- an entry of the body was there before or was generated; all others are changes of indexes
      rcases mem_withGenerated isEntry with
        inBody | ⟨attr, isAttribute, rule, rule_eq, onUpdate, unnamed, rfl⟩
      · exact .body inBody isActive
      · exact .renewed ⟨isAttribute, by simp [Attribute.isRenewed, rule_eq, onUpdate], unnamed⟩
    · obtain ⟨index, isIndex, own, isOwn, isOwnChange⟩ := origin entry isChange
      obtain ⟨⟨other, isName, isScalar, isNamed⟩, isAttr⟩ :=
        (exists_mem_indexChanges_iff isOwn).1 ⟨entry.2, isOwnChange⟩
      obtain ⟨part, isPart, attr_eq⟩ := List.mem_map.1 isAttr
      rw [← attr_eq]
      exact .index isIndex ⟨other, isName, isScalar, changes_iff_withGenerated.1 isNamed⟩ isPart
  · rintro (⟨isEntry, isActive⟩ | ⟨renews⟩ | ⟨isIndex, ⟨other, isName, isScalar, isNamed⟩, isPart⟩)
    · exact ⟨_, List.mem_append.2 (.inl (mem_withGenerated_of_mem call.draw isEntry)), isActive, rfl⟩
    · -- a generated value is assigned, so its entry is active
      obtain ⟨value, isMember⟩ := exists_mem_withGenerated renews
      exact ⟨_, List.mem_append.2 (.inl isMember), rfl, rfl⟩
    · obtain ⟨own, isOwn, subset⟩ := each _ isIndex
      obtain ⟨action, isAction⟩ := (exists_mem_indexChanges_iff isOwn).2
        ⟨⟨other, isName, isScalar, changes_iff_withGenerated.2 isNamed⟩,
          List.mem_map.2 ⟨_, isPart, rfl⟩⟩
      have isChange := subset _ isAction
      exact ⟨_, List.mem_append.2 (.inr isChange), KeyChanges.isActive isChange, rfl⟩

/-! ## Identity -/

/-- What tells items apart: the key attributes of the table, the marker, and the attributes that the
primary key is derived from. -/
def Identifies (entity : Entity) (name : String) : Prop :=
  name ∈ entity.table.keyAttributes ∨ name = entityMarker ∨ entity.isKeyAttribute name = true

/-- What the guard of updates does not see: key attributes and the marker in the body, and whatever
is changed besides the body. -/
structure UpdateCall.SparesIdentity (entity : Entity) (call : UpdateCall) : Prop where
  body : ∀ entry ∈ call.body.actions, entry.2.isIdle = false →
    Path.top entry.1 ∉ entity.table.keyAttributes ∧ Path.top entry.1 ≠ entityMarker
  renewed : ∀ attr, entity.Renews call.body attr → ¬ entity.Identifies (Path.top attr.name)
  indexes : ∀ index ∈ entity.indexes, entity.Touches (entity.Changes call.body) index →
    ∀ part ∈ index.parts, ¬ entity.Identifies (Path.top part.attr)

theorem not_isKeyAttribute_of_checkIdentity {body : UpdateBody}
    (passed : entity.checkIdentity body = .ok ()) :
    ∀ entry ∈ body.actions, entity.isKeyAttribute (Path.top entry.1) = false := by
  intro entry isEntry
  have passedEntry := each_of_forM passed entry isEntry
  dsimp only at passedEntry
  split at passedEntry
  · cases passedEntry
  · next notKey => simpa using notKey

/-- The guard sees the attributes that the primary key is derived from, if they are in the body. -/
theorem UpdateCall.Targets.not_identifies {call : UpdateCall} {name : String}
    (isTarget : call.Targets entity name) (passed : entity.checkIdentity call.body = .ok ())
    (spares : call.SparesIdentity entity) : ¬ entity.Identifies name := by
  cases isTarget with
  | @body entry isEntry isActive =>
    obtain ⟨notKey, notMarker⟩ := spares.body entry isEntry isActive
    have notReferenced := not_isKeyAttribute_of_checkIdentity passed entry isEntry
    rintro (isKey | isMarker | isReferenced)
    · exact notKey isKey
    · exact notMarker isMarker
    · rw [notReferenced] at isReferenced
      cases isReferenced
  | renewed renews => exact spares.renewed _ renews
  | index isIndex touches isPart => exact spares.indexes _ isIndex touches _ isPart

/-- The update that is sent leaves the identity of the item alone if and only if its body names no
key attribute of the table and not the marker, it makes nothing anew that identifies, and it derives
no index anew that is stored under such a name. -/
theorem UpdateCall.sparesIdentity_iff {call : UpdateCall}
    (plainOwn : ∀ path ∈ entity.ownPaths, Path.IsPlain path)
    (plainBody : ∀ entry ∈ call.body.actions, Path.IsPlain entry.1) {write : PendingWrite}
    (written : call.write entity = .ok write) :
    ∃ request changes,
      (∀ prior operations, write.operations prior = .ok operations →
        operations.head? = some (.update request)) ∧
      readUpdate request.update request.bindings = some changes ∧
      ((∀ change ∈ changes, ¬ entity.Identifies change.root) ↔ call.SparesIdentity entity) := by
  obtain ⟨request, changes, changed, writes⟩ := updateWrite_eq_ok written
  refine ⟨request, _, fun _ _ => writes.head?_operations,
    writes.read (plain_update plainOwn plainBody writes.affected), ?_⟩
  constructor
  · intro spares
    have spared : ∀ name, call.Targets entity name → ¬ entity.Identifies name := by
      intro name isTarget
      obtain ⟨change, isChange, rfl⟩ := writes.targets_iff.2 isTarget
      exact spares change isChange
    constructor
    · intro entry isEntry isActive
      have notIdentity := spared _ (.body isEntry isActive)
      exact ⟨fun isKey => notIdentity (.inl isKey), fun isMarker => notIdentity (.inr (.inl isMarker))⟩
    · exact fun attr renews => spared _ (.renewed renews)
    · exact fun index isIndex touches part isPart => spared _ (.index isIndex touches isPart)
  · intro spares change isChange
    exact (writes.targets_iff.1 ⟨change, isChange, rfl⟩).not_identifies writes.identity spares

end Entity

/-! ## A key that is made anew -/

def ticketEntity : Entity where
  name := "TICKET"
  table := { name := "T", partitionKey := "PK", sortKey := none, indexes := ∅ }
  attributes := [
    { name := "id", type := .string, generated := some ⟨.uuid, true⟩ },
    { name := "title", type := .string }]
  key := ⟨⟨"PK", .text "TICKET#\x7b\x7bid\x7d\x7d"⟩, none⟩
  indexes := []
  uniques := []

def renameTicket : Entity.UpdateCall where
  draw := fun _ => ⟨0, fun _ => 0⟩
  attributes := .single "id" (.string "1")
  body := .ofList [("title", .set (.string "leak"))]
  options := {}

/-- The title is all that is asked for, but the update changes what the key is derived from. -/
theorem identifies_renameTicket :
    ∃ write request changes, renameTicket.write ticketEntity = .ok write ∧
      (∀ prior operations, write.operations prior = .ok operations →
        operations.head? = some (.update request)) ∧
      readUpdate request.update request.bindings = some changes ∧
      ∃ change ∈ changes, ticketEntity.Identifies change.root := by
  have runs : (renameTicket.write ticketEntity).toOption.isSome = true := by decide +kernel
  obtain ⟨write, written⟩ := Option.isSome_iff_exists.1 runs
  have written : renameTicket.write ticketEntity = .ok write := by
    cases outcome : renameTicket.write ticketEntity with
    | error error => simp [outcome, Except.toOption] at written
    | ok other => simpa [outcome, Except.toOption] using written
  have plainOwn : ∀ path ∈ ticketEntity.ownPaths, Path.IsPlain path :=
    Path.isPlain_of_spelled [("PK", []), ("PK", []), ("id", []), ("title", [])] (by decide +kernel)
      (by decide)
  have plainBody : ∀ path ∈ renameTicket.body.actions.map Prod.fst, Path.IsPlain path :=
    Path.isPlain_of_spelled [("title", [])] (by decide +kernel) (by decide)
  obtain ⟨request, changes, isFirst, read, spares_iff⟩ :=
    Entity.UpdateCall.sparesIdentity_iff plainOwn (List.forall_mem_map.1 plainBody) written
  refine ⟨write, request, changes, written, isFirst, read, ?_⟩
  have notSpared : ¬ renameTicket.SparesIdentity ticketEntity := by
    intro spares
    refine spares.renewed { name := "id", type := .string, generated := some ⟨.uuid, true⟩ }
      ⟨List.mem_cons_self, rfl, by decide +kernel⟩ (.inr (.inr ?_))
    decide +kernel
  by_contra noChange
  exact notSpared (spares_iff.1 fun change isChange identifies =>
    noChange ⟨change, isChange, identifies⟩)

end SingleTable
