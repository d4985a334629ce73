import SingleTable.Connection
import SingleTable.Proofs.Entity.Layout

/-!
# Attributing items to their entities

The marker of an item names its entity.  The item is converted unless the engine refuses the pattern of
one of its keys (`Entity.Readable`), and an item without entity stays as it is; so an item is attributed
in exactly one way (`Registry.toLogicalItem_eq_ok_iff`) or not at all (`Registry.toLogicalItem_fails_iff`).
-/

namespace SingleTable

namespace Entity

variable {entity : Entity} {engine : PatternEngine} {item : Item}

/-- The engine refuses no pattern of the keys that an item has. -/
def Readable (entity : Entity) (engine : PatternEngine) (item : Item) : Prop :=
  ∀ part ∈ entity.parts, ∀ source key, part.template = .text source →
    item.get? part.attr = some (.string key) → engine.refusal? (Template.pattern source) = none

theorem refusal?_eq_none_iff : entity.refusal? engine item = none ↔ entity.Readable engine item := by
  unfold refusal? Readable
  rw [List.findSome?_eq_none_iff]
  refine forall₂_congr fun part _ => ?_
  cases template_eq : part.template with
  | copyOf attr => simp [Template.refusal?]
  | text source =>
    cases held : item.get? part.attr with
    | none => simp
    | some physical => cases physical <;> simp [Template.refusal?]

theorem readAttributes_eq_ok_iff {attributes : Item} :
    entity.readAttributes engine item = .ok attributes ↔
      entity.Readable engine item ∧ attributes = entity.toLogical item := by
  rw [← refusal?_eq_none_iff, readAttributes]
  cases entity.refusal? engine item with
  | none => simp [eq_comm]
  | some message => simp

theorem readable_lenient (entity : Entity) (item : Item) : entity.Readable .lenient item :=
  fun _ _ _ _ _ _ => rfl

/-- Of an item that can be read, the value is that of its attributes. -/
theorem readValue_of_readable {α : Type} [Storable α] (readable : entity.Readable engine item) :
    entity.readValue (α := α) engine item =
      ConversionError.lift (Storable.ofItem (entity.toLogical item)) := by
  rw [readValue, readAttributes_eq_ok_iff.2 ⟨readable, rfl⟩]
  rfl

end Entity

namespace Registry

variable {registry : Registry} {engine : PatternEngine} {item : Item} {logical : LogicalItem}

/-- The marker of an item names an entity. -/
structure Marks (registry : Registry) (item : Item) (entity : Entity) : Prop where
  isEntity : registry.entity? entity.name = some entity
  marked : item.get? entityMarker = some (.string entity.name)

theorem entityOf?_eq_some_iff {entity : Entity} :
    registry.entityOf? item = some entity ↔ registry.Marks item entity := by
  constructor
  · intro found
    obtain ⟨marker, isMarker, named⟩ := Option.bind_eq_some_iff.1 found
    obtain ⟨name, isName, isEntity⟩ := Option.bind_eq_some_iff.1 named
    obtain rfl : entity.name = name := by simpa using List.find?_some isEntity
    refine ⟨isEntity, ?_⟩
    cases marker <;> cases isName
    exact isMarker
  · rintro ⟨isEntity, marked⟩
    simp [entityOf?, marked, Value.string?, isEntity]

/-- What an item is converted to: the attributes of the entity that its marker names, or the item as
it is if it names none. -/
inductive Attributes (registry : Registry) (engine : PatternEngine) (item : Item) :
    LogicalItem → Prop where
  | known {entity : Entity} (marks : registry.Marks item entity)
      (readable : entity.Readable engine item) :
      Attributes registry engine item (.known entity.name (entity.toLogical item))
  | unknown (unmarked : ∀ entity, ¬ registry.Marks item entity) :
      Attributes registry engine item (.unknown item)

/-- An item cannot be converted: it has an entity, and the pattern of one of its keys is refused. -/
def Unreadable (registry : Registry) (engine : PatternEngine) (item : Item) : Prop :=
  ∃ entity, registry.Marks item entity ∧ ¬ entity.Readable engine item

/-- What becomes of an item: it is converted, or stays as it is because it cannot be. -/
inductive Keeps (registry : Registry) (engine : PatternEngine) (item : Item) :
    LogicalItem → Prop where
  | converted {logical : LogicalItem} (attributes : registry.Attributes engine item logical) :
      Keeps registry engine item logical
  | unchanged (unreadable : registry.Unreadable engine item) :
      Keeps registry engine item (.unknown item)

theorem not_unreadable_lenient (registry : Registry) (item : Item) :
    ¬ registry.Unreadable .lenient item := by
  rintro ⟨entity, -, unreadable⟩
  exact unreadable (entity.readable_lenient item)

theorem toLogicalItem_eq_ok_iff :
    registry.toLogicalItem engine item = .ok logical ↔ registry.Attributes engine item logical := by
  unfold toLogicalItem
  cases found : registry.entityOf? item with
  | none =>
    have unmarked (entity : Entity) : ¬ registry.Marks item entity := by
      rw [← entityOf?_eq_some_iff, found]
      simp
    constructor
    · rintro ⟨⟩
      exact .unknown unmarked
    · rintro (⟨marks, -⟩ | -)
      · exact absurd marks (unmarked _)
      · rfl
  | some entity =>
    have marks := entityOf?_eq_some_iff.1 found
    constructor
    · intro converted
      obtain ⟨attributes, isRead, answer⟩ := bind_eq_ok.1 converted
      obtain rfl := Except.ok.inj answer
      obtain ⟨readable, rfl⟩ :=
        Entity.readAttributes_eq_ok_iff.1 (ConversionError.lift_eq_ok.1 isRead)
      exact .known marks readable
    · rintro (⟨marks', readable⟩ | unmarked)
      · obtain rfl := Option.some.inj (found.symm.trans (entityOf?_eq_some_iff.2 marks'))
        dsimp only
        rw [Entity.readAttributes_eq_ok_iff.2 ⟨readable, rfl⟩]
        rfl
      · exact absurd marks (unmarked entity)

theorem toLogicalItem_fails_iff :
    (∃ error, registry.toLogicalItem engine item = .error error) ↔ registry.Unreadable engine item := by
  constructor
  · rintro ⟨error, failed⟩
    -- an item that is not converted has an entity, and would be converted if it could be read
    cases found : registry.entityOf? item with
    | none => simp [toLogicalItem, found] at failed
    | some entity =>
      have marks := entityOf?_eq_some_iff.1 found
      refine ⟨entity, marks, fun readable => ?_⟩
      cases failed.symm.trans (toLogicalItem_eq_ok_iff.2 (.known marks readable))
  · rintro ⟨entity, marks, unreadable⟩
    cases converted : registry.toLogicalItem engine item with
    | error error => exact ⟨error, rfl⟩
    | ok logical =>
      cases toLogicalItem_eq_ok_iff.1 converted with
      | known marks' readable =>
        obtain rfl := Option.some.inj
          ((entityOf?_eq_some_iff.2 marks).symm.trans (entityOf?_eq_some_iff.2 marks'))
        exact absurd readable unreadable
      | unknown unmarked => exact absurd marks (unmarked entity)

theorem keeps_toLogicalItemOrUnknown (registry : Registry) (engine : PatternEngine) (item : Item) :
    registry.Keeps engine item (registry.toLogicalItemOrUnknown engine item) := by
  unfold toLogicalItemOrUnknown
  cases converted : registry.toLogicalItem engine item with
  | ok logical => exact .converted (toLogicalItem_eq_ok_iff.1 converted)
  | error error => exact .unchanged (toLogicalItem_fails_iff.1 ⟨error, converted⟩)

end Registry

namespace Connection

variable {connection : Connection} {items : List Item}

theorem toLogicalItems_eq_ok_iff {logicals : List LogicalItem} :
    connection.toLogicalItems items = .ok logicals ↔
      List.Forall₂ (connection.registry.Attributes connection.engine) items logicals :=
  ⟨fun converted => (forall₂_of_mapM converted).imp fun _ _ => Registry.toLogicalItem_eq_ok_iff.1,
    fun each => mapM_of_forall₂ (each.imp fun _ _ => Registry.toLogicalItem_eq_ok_iff.2)⟩

theorem toLogicalItems_fails_iff :
    (∃ error, connection.toLogicalItems items = .error error) ↔
      ∃ item ∈ items, connection.registry.Unreadable connection.engine item := by
  unfold toLogicalItems
  rw [mapM_fails_iff]
  exact exists_congr fun item => and_congr_right fun _ => Registry.toLogicalItem_fails_iff

end Connection

end SingleTable
