import SingleTable.Proofs.Entity.RoundTrip

/-!
# Hidden attributes

Reading looks at an item in two ways: at its keys, for what they show, and at its names, for what it
lacks.  A hidden attribute is dropped from the item, and a key that shows it does not bring it back
(`Entity.recoveredValue?_of_isHidden`).  What is left is that its presence decides nothing about the
others: whether the item has a name is asked only before that same name is recovered.  So items that
agree on all other names are read alike, whether the hidden values differ or only one of the items has
them (`Entity.toLogical_hides`).
-/

namespace SingleTable

namespace Entity

variable {entity : Entity} {item other : Item} {name : String}

/-! ## Hidden names -/

def isHidden (entity : Entity) (name : String) : Bool :=
  (entity.attribute? name).any (·.hidden)

/-- A hidden name is that of an attribute declared so. -/
theorem hides_of_isHidden (hidden : entity.isHidden name = true) : entity.hides name = true := by
  unfold isHidden at hidden
  cases found : entity.attribute? name with
  | none =>
    rw [found] at hidden
    cases hidden
  | some attr =>
    rw [found, Option.any_some] at hidden
    have sameName : attr.name = name := by simpa using List.find?_some found
    exact List.any_eq_true.2 ⟨attr, List.mem_of_find?_eq_some found, by simp [hidden, sameName]⟩

/-- If no name is declared twice, the hidden names are those of the attributes declared so. -/
theorem isHidden_eq_hides (nodup : entity.attributeNames.Nodup) :
    entity.isHidden name = entity.hides name := by
  rw [Bool.eq_iff_iff]
  refine ⟨hides_of_isHidden, ?_⟩
  intro hides
  obtain ⟨attr, isDeclared, declaredSo⟩ := List.any_eq_true.1 hides
  obtain ⟨hidden, rfl⟩ : attr.hidden = true ∧ attr.name = name := by simpa using declaredSo
  rw [isHidden, attribute?, find?_of_nodup nodup isDeclared, Option.any_some, hidden]

/-- Both items have the same values, or none, under every name that is not hidden. -/
def AgreeOnVisible (entity : Entity) (item other : Item) : Prop :=
  ∀ name, entity.isHidden name = false → item.get? name = other.get? name

theorem AgreeOnVisible.contains (agree : entity.AgreeOnVisible item other)
    (visible : entity.isHidden name = false) : item.contains name = other.contains name := by
  rw [NameMap.contains, agree name visible, NameMap.contains]

/-! ## Recovery -/

/-- No key shows a value for a hidden name. -/
theorem recoveredValue?_of_isHidden (hidden : entity.isHidden name = true) (raw : Value) :
    entity.recoveredValue? name raw = none := by
  unfold isHidden at hidden
  unfold recoveredValue?
  split
  · rfl
  · next attr found =>
    rw [found, Option.any_some] at hidden
    exact if_pos hidden

theorem get?_recovered_of_isHidden (hidden : entity.isHidden name = true) :
    (entity.recovered item).get? name = none := by
  refine recovered_induction (motive := fun recovered => recovered.get? name = none) rfl ?_
  intro recovered absent _ _ _ _ shown raw _ _ value isValue
  have differs : shown ≠ name := by
    rintro rfl
    rw [recoveredValue?_of_isHidden hidden] at isValue
    cases isValue
  rw [NameMap.get?_insert_of_ne _ _ differs]
  exact absent

/-- A part adds the same values for both items, whatever was recovered before it. -/
theorem recoverPart_eq (apart : ∀ name ∈ entity.physicalAttributes, entity.isHidden name = false)
    (agree : entity.AgreeOnVisible item other) {part : KeyPart} (isPart : part ∈ entity.parts)
    (recovered : Item) :
    entity.recoverPart item recovered part = entity.recoverPart other recovered part := by
  have isPhysical : part.attr ∈ entity.physicalAttributes := List.mem_map.2 ⟨part, isPart, rfl⟩
  unfold recoverPart
  rw [agree part.attr (apart part.attr isPhysical)]
  split
  · rfl
  · refine List.foldl_ext _ _ _ ?_
    rintro recovered ⟨name, raw⟩ -
    dsimp only
    cases visibility : entity.isHidden name with
    | false => rw [agree.contains visibility]
    | true =>
      rw [recoveredValue?_of_isHidden visibility, ite_self, ite_self]

theorem recovered_eq (apart : ∀ name ∈ entity.physicalAttributes, entity.isHidden name = false)
    (agree : entity.AgreeOnVisible item other) : entity.recovered item = entity.recovered other :=
  List.foldl_ext _ _ _ fun recovered _ isPart => recoverPart_eq apart agree isPart recovered

/-! ## Reading -/

theorem isStripped_of_isHidden (hidden : entity.isHidden name = true) :
    entity.isStripped name = true := by
  have declaredSo : (entity.attributes.any fun attr => attr.hidden && attr.name == name) = true :=
    hides_of_isHidden hidden
  rw [isStripped, declaredSo, Bool.or_true]

/-- Both items are the same without what reading drops. -/
theorem filter_isStripped_eq (agree : entity.AgreeOnVisible item other) :
    (item.filter fun name _ => !entity.isStripped name) =
      other.filter fun name _ => !entity.isStripped name := by
  apply NameMap.ext_get?
  intro name
  rw [NameMap.get?_filter, NameMap.get?_filter]
  cases visibility : entity.isHidden name with
  | false => rw [agree name visibility]
  | true => simp [isStripped_of_isHidden visibility]

/-- If no key is stored under a hidden name, items that agree on all names that are not hidden are
read alike.  And nothing hidden is ever read, not even where a key shows it. -/
theorem toLogical_hides
    (apart : ∀ name ∈ entity.physicalAttributes, entity.isHidden name = false) :
    (∀ item other, entity.AgreeOnVisible item other → entity.toLogical item = entity.toLogical other) ∧
      ∀ item name, entity.isHidden name = true → (entity.toLogical item).get? name = none := by
  constructor
  · intro item other agree
    rw [toLogical, recovered_eq apart agree, filter_isStripped_eq agree, toLogical]
  · intro item name hidden
    rw [toLogical, NameMap.get?_union, NameMap.get?_filter, get?_recovered_of_isHidden hidden]
    simp [isStripped_of_isHidden hidden]

end Entity

/-! ## Devices and their PINs -/

def deviceDeclaration : Declaration where
  name := "DEVICE"
  table := some { name := "T", partitionKey := "PK", sortKey := none, indexes := ∅ }
  key := ⟨.text "DEVICE#\x7b\x7bpin\x7d\x7d#\x7b\x7bid\x7d\x7d", none⟩
  attributes := [{ name := "id", type := .string }, { name := "pin", type := .number, hidden := true },
    { name := "owner", type := .string }]

def deviceEntity : Entity where
  name := "DEVICE"
  table := { name := "T", partitionKey := "PK", sortKey := none, indexes := ∅ }
  attributes := deviceDeclaration.attributes
  key := ⟨⟨"PK", .text "DEVICE#\x7b\x7bpin\x7d\x7d#\x7b\x7bid\x7d\x7d"⟩, none⟩
  indexes := []
  uniques := []

theorem compile_deviceDeclaration : deviceDeclaration.compile none = .ok deviceEntity := by
  with_unfolding_all rfl

def deviceItem (entries : List (String × Value)) : Item :=
  .ofList (("PK", .string "DEVICE#1234#7") :: ("owner", .string "ann") :: entries)

/-- A device is read without its PIN, which its key shows, and the id is recovered from the key
whether the item has the PIN or not. -/
theorem toLogical_deviceItem :
    deviceDeclaration.compile none = .ok deviceEntity ∧
      (∀ name ∈ deviceEntity.physicalAttributes, deviceEntity.isHidden name = false) ∧
      deviceEntity.isHidden "pin" = true ∧
      deviceEntity.toLogical (deviceItem []) =
        deviceEntity.toLogical (deviceItem [("pin", .string "4321")]) ∧
      (deviceEntity.toLogical (deviceItem [])).get? "pin" = none ∧
      (deviceEntity.toLogical (deviceItem [])).get? "id" = some (.string "7") := by
  have apart : ∀ name ∈ deviceEntity.physicalAttributes, deviceEntity.isHidden name = false := by
    decide
  have hidden : deviceEntity.isHidden "pin" = true := by decide
  obtain ⟨alike, absent⟩ := Entity.toLogical_hides apart
  refine ⟨compile_deviceDeclaration, apart, hidden, alike _ _ ?_, absent _ "pin" hidden, by decide +kernel⟩
  intro name visible
  have differs : name ≠ "pin" := by
    rintro rfl
    rw [hidden] at visible
    cases visible
  have added : deviceItem [("pin", .string "4321")] = (deviceItem []).insert "pin" (.string "4321") := by
    decide +kernel
  rw [added, NameMap.get?_insert_of_ne _ _ differs.symm]

end SingleTable
