import SingleTable.Proofs.Entity.RoundTrip

/-!
# Attributes under the names of keys

An attribute may have the name of a key attribute of the table, for instance where a table is keyed
on `id` and the key is an alias of the attribute `id`.  The item then stores the attribute and the
key in one place.  Reading takes the place for the key and drops it; and since the item has the name
before it is dropped, nothing is recovered for it from the keys either.  So an attribute is read back
if and only if its name is neither that of a key nor that of the marker
(`Entity.get?_toLogical_eq_some_iff`).
-/

namespace SingleTable

namespace Entity

variable {entity : Entity} {item : Item} {name : String}

/-! ## What an item has is not recovered -/

theorem get?_recovered_of_contains (known : item.contains name = true) :
    (entity.recovered item).get? name = none := by
  refine recovered_induction (motive := fun recovered => recovered.get? name = none) rfl ?_
  intro recovered absent _ _ _ _ other _ _ lacks value _
  have differs : other ≠ name := by
    rintro rfl
    rw [known] at lacks
    cases lacks
  rw [NameMap.get?_insert_of_ne _ _ differs]
  exact absent

/-- What an item has is read as it is, or left out. -/
theorem get?_toLogical_of_contains (known : item.contains name = true) :
    (entity.toLogical item).get? name = if entity.isStripped name then none else item.get? name := by
  rw [toLogical, NameMap.get?_union, NameMap.get?_filter, get?_recovered_of_contains known, Option.or_none]
  cases item.get? name <;> cases entity.isStripped name <;> rfl

/-! ## A new item has all attributes -/

theorem contains_union {attributes other : Item} (known : attributes.contains name = true) :
    (attributes.union other).contains name = true := by
  rw [NameMap.contains] at known ⊢
  rw [NameMap.get?_union, Option.isSome_or, known, Bool.or_true]

theorem contains_addIndexes {attributes result : Item} {indexes : List IndexLayout}
    (added : addIndexes attributes indexes item = .ok result) (known : item.contains name = true) :
    result.contains name = true := by
  induction indexes generalizing item with
  | nil =>
    obtain rfl := Except.ok.inj added
    exact known
  | cons index indexes inductionHypothesis =>
    unfold addIndexes at added
    split at added
    · next values _ =>
      rw [NameMap.insertAll_eq_union] at added
      exact inductionHypothesis added (contains_union known)
    · exact inductionHypothesis added known
    · cases added

theorem contains_toPhysical {draw : String → Moment} {attributes : Item}
    (written : entity.toPhysical draw attributes = .ok item)
    (known : (entity.applyDefaults draw attributes).contains name = true) :
    item.contains name = true := by
  obtain ⟨key, indexed, -, isIndexed, rfl⟩ := toPhysical_eq_ok written
  have stored := contains_addIndexes isIndexed (contains_union known)
  rw [NameMap.contains] at stored ⊢
  rw [NameMap.get?_insert]
  split
  · rfl
  · exact stored

/-! ## Reading a new item -/

/-- An attribute that is not hidden is read back with its value if and only if its name is neither
that of a key nor that of the marker.  A key that is an alias of the attribute of its own name makes
no exception: the value is lost. -/
theorem get?_toLogical_eq_some_iff {draw : String → Moment} {attributes : Item} {value : Value}
    (visible : entity.hides name = false)
    (hasValue : (entity.applyDefaults draw attributes).get? name = some value)
    (written : entity.toPhysical draw attributes = .ok item) :
    ((entity.toLogical item).get? name = some value ↔
      name ∉ entity.physicalAttributes ∧ name ≠ entityMarker) ∧
    ∀ part ∈ entity.parts, part.attr = name → part.template = .copyOf name →
      (entity.toLogical item).get? name = none := by
  have known : item.contains name = true := contains_toPhysical written (by simp [NameMap.contains, hasValue])
  have isStripped_iff : entity.isStripped name = true ↔
      name ∈ entity.physicalAttributes ∨ name = entityMarker := by
    have visible : (entity.attributes.any fun attr => attr.hidden && attr.name == name) = false := visible
    simp [isStripped, visible]
  rw [get?_toLogical_of_contains known]
  constructor
  · constructor
    · intro survives
      split at survives
      · cases survives
      · next notStripped => exact not_or.1 (mt isStripped_iff.2 notStripped)
    · rintro ⟨notPhysical, notMarker⟩
      rw [if_neg (mt isStripped_iff.1 (not_or.2 ⟨notPhysical, notMarker⟩)),
        get?_toPhysical_of_not_physical written notPhysical notMarker, hasValue]
  · rintro part isPart rfl -
    exact if_pos (isStripped_iff.2 (.inl (List.mem_map.2 ⟨part, isPart, rfl⟩)))

end Entity

/-! ## Users keyed on their id -/

def keyedOnIdDeclaration : Declaration where
  name := "USER"
  table := some { name := "T", partitionKey := "id", sortKey := none, indexes := ∅ }
  key := ⟨.copyOf "id", none⟩
  attributes := [{ name := "id", type := .string }, { name := "name", type := .string }]

def keyedOnIdEntity : Entity where
  name := "USER"
  table := { name := "T", partitionKey := "id", sortKey := none, indexes := ∅ }
  attributes := keyedOnIdDeclaration.attributes
  key := ⟨⟨"id", .copyOf "id"⟩, none⟩
  indexes := []
  uniques := []

theorem compile_keyedOnIdDeclaration : keyedOnIdDeclaration.compile none = .ok keyedOnIdEntity := by
  with_unfolding_all rfl

def keyedOnIdAttributes : Item := .ofList [("id", .string "1"), ("name", .string "ann")]

def keyedOnIdItem : Except Error Item :=
  keyedOnIdEntity.toPhysical (fun _ => ⟨0, fun _ => 0⟩) keyedOnIdAttributes

/-- A user is stored with the id and read without it. -/
theorem toLogical_keyedOnIdItem :
    keyedOnIdDeclaration.compile none = .ok keyedOnIdEntity ∧
      ∃ item, keyedOnIdItem = .ok item ∧ item.get? "id" = some (.string "1") ∧
        (keyedOnIdEntity.toLogical item).get? "id" = none ∧
        (keyedOnIdEntity.toLogical item).get? "name" = some (.string "ann") := by
  have stores : keyedOnIdItem.toOption.bind (·.get? "id") = some (.string "1") := by decide +kernel
  cases written : keyedOnIdItem with
  | error error => simp [written, Except.toOption] at stores
  | ok item =>
    rw [written] at stores
    have hasId : (keyedOnIdEntity.applyDefaults (fun _ => ⟨0, fun _ => 0⟩) keyedOnIdAttributes).get?
        "id" = some (.string "1") := by decide +kernel
    have hasName : (keyedOnIdEntity.applyDefaults (fun _ => ⟨0, fun _ => 0⟩) keyedOnIdAttributes).get?
        "name" = some (.string "ann") := by decide +kernel
    obtain ⟨-, lost⟩ := Entity.get?_toLogical_eq_some_iff (by decide) hasId written
    obtain ⟨kept, -⟩ := Entity.get?_toLogical_eq_some_iff (by decide) hasName written
    refine ⟨compile_keyedOnIdDeclaration, item, rfl, stores, ?_, kept.2 ⟨by decide, by decide⟩⟩
    exact lost ⟨"id", .copyOf "id"⟩ (by decide) rfl rfl

end SingleTable
