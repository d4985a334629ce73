import SingleTable.Entity.Logical
import SingleTable.Proofs.Entity.Item
import SingleTable.Proofs.Template.Reading

/-!
# Reading what was written

Reading drops what writing added, and recovers from the keys what the item lacks.  An item that
was just written lacks nothing that its keys show: a key is written only if all its names have
values, and those are stored beside it (`Entity.recovered_toPhysical`).  So reading gives back the
attributes and their defaults, the hidden ones apart (`Entity.toLogical_toPhysical`).

The marker is the one physical attribute that is written without a template.  If an index that is
left out has its key there, the name of the entity is taken for a value of the key.
-/

namespace SingleTable

/-! ## What recovery can find -/

namespace Entity

variable {entity : Entity} {item : Item}

/-- What is recovered is added value by value, each shown by a key under a name that the item
lacks. -/
theorem recovered_induction {motive : Item → Prop} (nothing : motive ∅)
    (add : ∀ recovered, motive recovered → ∀ part ∈ entity.parts, ∀ physical,
      item.get? part.attr = some physical →
      ∀ name raw, (name, raw) ∈ (part.template.recover physical).entries → item.contains name = false →
      ∀ value, entity.recoveredValue? name raw = some value → motive (recovered.insert name value)) :
    motive (entity.recovered item) := by
  -- one recursion is over the parts, one over the entries that a part shows
  refine List.foldlRecOn _ _ nothing fun recovered soFar part isPart => ?_
  unfold recoverPart
  split
  · exact soFar
  · next physical isShown =>
    refine List.foldlRecOn _ _ soFar ?_
    rintro recovered soFar ⟨name, raw⟩ isEntry
    dsimp only
    split
    · exact soFar
    · next isNew =>
      have lacks : item.contains name = false := by
        rw [Bool.or_eq_true, not_or] at isNew
        exact Bool.eq_false_iff.2 isNew.1
      split
      · next value isValue =>
        exact add recovered soFar part isPart physical isShown name raw isEntry lacks value isValue
      · exact soFar

/-- Nothing is recovered from an item that has the names of all keys it shows. -/
theorem recovered_eq_empty (known : ∀ part ∈ entity.parts, item.get? part.attr = none ∨
    ∀ name ∈ part.names, item.contains name = true) : entity.recovered item = ∅ := by
  refine recovered_induction (motive := (· = ∅)) rfl ?_
  intro recovered _ part isPart physical isShown name raw isEntry lacks
  rcases known part isPart with isAbsent | isKnown
  · rw [isAbsent] at isShown
    cases isShown
  · rw [isKnown name (Template.mem_names_of_recover isEntry)] at lacks
    cases lacks

/-! ## Items that were just written -/

section Written

variable {declaration : Declaration} {draw : String → Moment} {attributes : Item}

/-- A part of a new item was written from names that all have values, or it is the marker, or it
is absent because its index was left out. -/
theorem part_of_toPhysical (nodup : entity.physicalAttributes.Nodup)
    (apart : ∀ name ∈ entity.physicalAttributes,
      (entity.applyDefaults draw attributes).get? name = none)
    (written : entity.toPhysical draw attributes = .ok item) {part : KeyPart}
    (isPart : part ∈ entity.parts) :
    (∀ name ∈ part.names, (entity.applyDefaults draw attributes).contains name = true) ∨
      part.attr = entityMarker ∨ item.get? part.attr = none := by
  have contained {mode : Completeness} {value : Value}
      (isValue : part.template.interpolate mode (entity.applyDefaults draw attributes) = .ok value) :
      ∀ name ∈ part.names, (entity.applyDefaults draw attributes).contains name = true := by
    intro name isName
    obtain ⟨value, isPresent, -⟩ := Template.present_of_interpolate isValue isName
    obtain ⟨found, -⟩ := Option.filter_eq_some_iff.1 isPresent
    rw [NameMap.contains, found, Option.isSome_some]
  by_cases isMarker : part.attr = entityMarker
  · exact .inr (.inl isMarker)
  · rcases List.mem_append.1 isPart with isKeyPart | isIndexPart
    · obtain ⟨value, isValue, -⟩ := get?_toPhysical_of_key nodup written isKeyPart
      exact .inl (contained isValue)
    · obtain ⟨index, isIndex, isIndexPart⟩ := List.mem_flatMap.1 isIndexPart
      rcases toPhysical_index_cases nodup written isIndex with isWritten | ⟨-, -, unchanged⟩
      · obtain ⟨value, isValue, -⟩ := isWritten part isIndexPart
        exact .inl (contained isValue)
      · -- nothing but the indexes writes under the attributes of an index, the marker apart
        refine .inr (.inr ?_)
        rw [unchanged part isIndexPart isMarker]
        exact apart _ (List.mem_map.2 ⟨part, isPart, rfl⟩)

/-- Nothing is recovered from a new item, unless a key under the marker has names without values. -/
theorem recovered_toPhysical (laysOut : declaration.LaysOut entity)
    (nodup : entity.physicalAttributes.Nodup)
    (apart : ∀ name ∈ entityMarker :: entity.physicalAttributes,
      name ∉ entity.attributeNames ∧ (entity.applyDefaults draw attributes).get? name = none)
    (marked : ∀ part ∈ entity.parts, part.attr = entityMarker → ∀ name ∈ part.names,
      (entity.applyDefaults draw attributes).contains name = true)
    (written : entity.toPhysical draw attributes = .ok item) : entity.recovered item = ∅ := by
  apply recovered_eq_empty
  intro part isPart
  have stored : (∀ name ∈ part.names,
      (entity.applyDefaults draw attributes).contains name = true) →
      ∀ name ∈ part.names, item.contains name = true := by
    intro haveValues name isName
    have isDeclared := laysOut.mem_attributeNames isPart isName
    have differs : ∀ other ∈ entityMarker :: entity.physicalAttributes, name ≠ other :=
      fun other isOther same => (apart other isOther).1 (same ▸ isDeclared)
    have same := get?_toPhysical_of_not_physical written
      (fun isPhysical => differs name (by simp [isPhysical]) rfl) (differs _ (by simp))
    have isStored := haveValues name isName
    rwa [NameMap.contains, ← same] at isStored
  rcases part_of_toPhysical nodup (fun name isPhysical => (apart name (by simp [isPhysical])).2)
    written isPart with haveValues | isMarker | isAbsent
  · exact .inr (stored haveValues)
  · exact .inr (stored (marked part isPart isMarker))
  · exact .inl isAbsent

/-- Whether an attribute is left out of what is read because it is declared so. -/
def hides (entity : Entity) (name : String) : Bool :=
  entity.attributes.any fun attr => attr.hidden && attr.name == name

/-- Reading an item that was just written gives the attributes it was written from, with their
defaults and without the hidden ones. -/
theorem toLogical_toPhysical {defaultTable : Option Table}
    (compiled : declaration.compile defaultTable = .ok entity)
    (nodup : entity.physicalAttributes.Nodup)
    (apart : ∀ name ∈ entityMarker :: entity.physicalAttributes,
      name ∉ entity.attributeNames ∧ attributes.contains name = false)
    (marked : ∀ part ∈ entity.parts, part.attr = entityMarker → ∀ name ∈ part.names,
      (entity.applyDefaults draw attributes).contains name = true)
    (written : entity.toPhysical draw attributes = .ok item) :
    entity.toLogical item =
      (entity.applyDefaults draw attributes).filter fun name _ => !entity.hides name := by
  have notFilled : ∀ name ∈ entityMarker :: entity.physicalAttributes,
      (entity.applyDefaults draw attributes).get? name = none := by
    intro name isPhysical
    have notGiven : attributes.get? name = none := by
      simpa [NameMap.contains] using (apart name isPhysical).2
    rw [get?_applyDefaults_of_not_mem (apart name isPhysical).1, Item.present?, notGiven,
      Option.filter_none]
  have laysOut := Declaration.laysOut_of_compile compiled
  have nothing := recovered_toPhysical laysOut nodup
    (fun name isPhysical => ⟨(apart name isPhysical).1, notFilled name isPhysical⟩) marked written
  apply NameMap.ext_get?
  intro name
  rw [toLogical, nothing, NameMap.get?_union, NameMap.get?_filter, NameMap.get?_filter,
    NameMap.get?_empty, Option.or_none]
  by_cases isPhysical : name ∈ entityMarker :: entity.physicalAttributes
  · -- what writing added is stripped, and was not there before
    have isStripped : entity.isStripped name = true := by
      rcases List.mem_cons.1 isPhysical with rfl | isPhysical
      · simp [isStripped]
      · simp [isStripped, isPhysical]
    rw [notFilled name isPhysical, isStripped]
    cases item.get? name <;> rfl
  · simp only [List.mem_cons, not_or] at isPhysical
    have isStripped : entity.isStripped name = entity.hides name := by
      simp [isStripped, hides, isPhysical.1, isPhysical.2]
    rw [get?_toPhysical_of_not_physical written isPhysical.2 isPhysical.1, isStripped]

end Written

end Entity

/-! ## Users listed by their nicknames -/

def nicknameTable (sortKey : String) : Table := .ofIndexes
  [("GSI1", ⟨.globalIndex, some "GSI1PK", sortKey, true⟩)]

def nicknameDeclaration (sortKey : String) : Declaration where
  name := "USER"
  table := some (nicknameTable sortKey)
  key := ⟨.text "USER#\x7b\x7bid\x7d\x7d", none⟩
  indexes := [("GSI1", ⟨.globalIndex, some (.text "NICKNAMES"), .text "\x7b\x7bnick\x7d\x7d", none⟩)]
  attributes := [{ name := "id", type := .string }, { name := "nick", type := .string },
    { name := "password", type := .string, hidden := true },
    { name := "status", type := .string, default := some (.constant (.string "new")) }]

def nicknameEntity (sortKey : String) : Entity where
  name := "USER"
  table := nicknameTable sortKey
  attributes := (nicknameDeclaration sortKey).attributes
  key := ⟨⟨"PK", .text "USER#\x7b\x7bid\x7d\x7d"⟩, none⟩
  indexes := [⟨"GSI1", .globalIndex, some ⟨"GSI1PK", .text "NICKNAMES"⟩,
    ⟨sortKey, .text "\x7b\x7bnick\x7d\x7d"⟩, true⟩]
  uniques := []

theorem compile_nicknameDeclaration (sortKey : String) :
    (nicknameDeclaration sortKey).compile none = .ok (nicknameEntity sortKey) := by
  with_unfolding_all rfl

def nicknameAttributes (id : String) : Item :=
  .ofList [("id", .string id), ("password", .string "secret")]

def nicknameItem (sortKey id : String) : Except Error Item :=
  (nicknameEntity sortKey).toPhysical (fun _ => ⟨0, fun _ => 0⟩) (nicknameAttributes id)

/-- A user is read as it was created, without the password, whatever its id looks like. -/
theorem toLogical_nicknameItem :
    ∃ item, nicknameItem "GSI1SK" "1#\n(.*)" = .ok item ∧
      item.get? "password" = some (.string "secret") ∧
      (nicknameEntity "GSI1SK").toLogical item =
        .ofList [("id", .string "1#\n(.*)"), ("status", .string "new")] := by
  have stores : (nicknameItem "GSI1SK" "1#\n(.*)").toOption.bind (·.get? "password") =
      some (.string "secret") := by decide +kernel
  cases written : nicknameItem "GSI1SK" "1#\n(.*)" with
  | error error => simp [written, Except.toOption] at stores
  | ok item =>
    rw [written] at stores
    refine ⟨item, rfl, stores, ?_⟩
    have apart : ∀ name ∈ entityMarker :: (nicknameEntity "GSI1SK").physicalAttributes,
        name ∉ (nicknameEntity "GSI1SK").attributeNames ∧
          (nicknameAttributes "1#\n(.*)").contains name = false := by decide +kernel
    have unmarked : ∀ part ∈ (nicknameEntity "GSI1SK").parts, part.attr ≠ entityMarker := by decide
    rw [Entity.toLogical_toPhysical (compile_nicknameDeclaration "GSI1SK") (by decide) apart
      (fun part isPart isMarker => absurd isMarker (unmarked part isPart)) written]
    decide +kernel

/-- If the index has its sort key in the place of the marker, a user without a nickname is read
with the name of the entity for one. -/
theorem nickname_of_marker :
    (nicknameDeclaration entityMarker).compile none = .ok (nicknameEntity entityMarker) ∧
      (nicknameEntity entityMarker).physicalAttributes.Nodup ∧
      (∀ name ∈ entityMarker :: (nicknameEntity entityMarker).physicalAttributes,
        name ∉ (nicknameEntity entityMarker).attributeNames ∧
          (nicknameAttributes "1").contains name = false) ∧
      ∃ item, nicknameItem entityMarker "1" = .ok item ∧
        (nicknameEntity entityMarker).toLogical item ≠
          ((nicknameEntity entityMarker).applyDefaults (fun _ => ⟨0, fun _ => 0⟩)
            (nicknameAttributes "1")).filter fun name _ => !(nicknameEntity entityMarker).hides name := by
  refine ⟨compile_nicknameDeclaration entityMarker, by decide, by decide +kernel, ?_⟩
  have recovers : (nicknameItem entityMarker "1").toOption.any (fun item =>
      (nicknameEntity entityMarker).toLogical item ≠
        ((nicknameEntity entityMarker).applyDefaults (fun _ => ⟨0, fun _ => 0⟩)
          (nicknameAttributes "1")).filter fun name _ => !(nicknameEntity entityMarker).hides name) =
            true := by
    decide +kernel
  cases written : nicknameItem entityMarker "1" with
  | error error => simp [written, Except.toOption] at recovers
  | ok item => exact ⟨item, rfl, by simpa [written, Except.toOption] using recovers⟩

end SingleTable
