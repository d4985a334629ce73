import SingleTable.Proofs.Entity.RoundTrip
import SingleTable.Proofs.Entity.Typing
import SingleTable.Proofs.Template.Reading

/-!
# Reading a part of an item

A projection or a narrow index gives less than the whole item, and what it lacks is recovered from
the keys it shows.  A key was made by a template from values that all exist
(`Entity.interpolate_of_toPhysical`), so it shows nothing but these values if the template can be read
in one way only and their types are the declared ones (`Entity.recoveredValue?_of_legible`).  Then
whatever part of the item is read, an attribute may be missing, but none is wrong
(`Entity.within_toLogical`).
-/

namespace SingleTable

/-- Every attribute of one item is an attribute of another. -/
def Item.Within (part whole : Item) : Prop :=
  ∀ name value, part.get? name = some value → whole.get? name = some value

theorem Item.within_filter (item : Item) (keep : String → Value → Bool) :
    Item.Within (item.filter keep) item := by
  intro name value isFound
  rw [NameMap.get?_filter] at isFound
  exact (Option.filter_eq_some_iff.1 isFound).1

/-! ## Values of a type -/

/-- A text that is read as a value of the type of another value, whose text it is, is read as that
value. -/
theorem AttributeType.eq_of_readKeyText? {type : AttributeType} {value found : Value}
    (admitted : type.admits value = true)
    (isFound : type.readKeyText? (value.keyText?.getD "") = some found) : found = value := by
  cases type with
  | binary | list | map | stringSet | numberSet | binarySet => cases isFound
  | string | enumeration =>
    cases value with
    | string text => exact (Option.some.inj isFound).symm
    | _ => cases admitted
  | number =>
    cases value with
    | number text =>
      obtain ⟨_, -, rfl⟩ := Option.map_eq_some_iff.1 isFound
      rfl
    | _ => cases admitted
  | boolean =>
    cases value with
    | boolean flag => cases flag <;> exact (Option.some.inj isFound).symm
    | _ => cases admitted

namespace Entity

variable {entity : Entity} {attributes item shown : Item} {draw : String → Moment}

/-- What a key part shows can be read in one way only: attributes that can be recovered from it have
values of their types, and its text is unmistakable. -/
structure Legible (entity : Entity) (attributes : Item) (part : KeyPart) : Prop where
  typed : ∀ name ∈ part.names, ∀ attr ∈ entity.attribute? name, attr.hidden = false →
    ∀ value ∈ attributes.present? name, attr.type.admits value = true
  unmistakable : part.template.IsUnmistakable attributes

instance (entity : Entity) (attributes : Item) (part : KeyPart) :
    Decidable (entity.Legible attributes part) :=
  decidable_of_iff (_ ∧ _) ⟨fun both => ⟨both.1, both.2⟩, fun legible => ⟨legible.1, legible.2⟩⟩

/-! ## One part -/

/-- A part shows the value that it is a copy of, or the texts of the values that it was made from. -/
theorem raw_of_recover {part : KeyPart} (legible : entity.Legible attributes part) {physical : Value}
    (isValue : part.template.interpolate .strict attributes = .ok physical) {name : String}
    {raw : Value} (isEntry : (name, raw) ∈ (part.template.recover physical).entries) {value : Value}
    (isPresent : attributes.present? name = some value) :
    raw = value ∨ raw = .string (value.keyText?.getD "") := by
  have unmistakable := legible.unmistakable
  have isRaw := NameMap.get?_eq_some_iff.2 isEntry
  cases template_eq : part.template with
  | copyOf source =>
    left
    simp only [template_eq, Template.recover, Item.single, NameMap.ofList, NameMap.insertAll,
      List.foldl_cons, List.foldl_nil, NameMap.get?_insert] at isRaw
    split at isRaw
    · next same =>
      obtain rfl := same
      simp only [template_eq, Template.interpolate, isPresent] at isValue
      split at isValue
      · rw [← Option.some.inj isRaw, Except.ok.inj isValue]
      · cases isValue
    · cases isRaw
  | text source =>
    right
    rw [template_eq] at isValue isEntry unmistakable
    obtain ⟨rendered, isRendered, rfl⟩ := map_eq_ok.1 isValue
    simp only [Template.recover, NameMap.map, List.mem_map] at isEntry
    obtain ⟨⟨other, text⟩, isText, entry_eq⟩ := isEntry
    obtain ⟨rfl, rfl⟩ := Prod.mk.inj entry_eq
    -- what is read of the text is what was written, for no placeholder can be mistaken
    rw [Template.text_of_matchText isRendered unmistakable
      (NameMap.get?_eq_some_iff.2 isText), Template.textIn, isPresent]
    rfl

/-- What is recovered from a part has the value that the part was made from. -/
theorem recoveredValue?_of_legible {part : KeyPart} (legible : entity.Legible attributes part)
    {physical : Value} (isValue : part.template.interpolate .strict attributes = .ok physical)
    {name : String} {raw : Value} (isEntry : (name, raw) ∈ (part.template.recover physical).entries)
    {found : Value} (isFound : entity.recoveredValue? name raw = some found) :
    attributes.present? name = some found := by
  have isName : name ∈ part.names := Template.mem_names_of_recover isEntry
  obtain ⟨value, isPresent, -⟩ := Template.present_of_interpolate isValue isName
  unfold recoveredValue? at isFound
  split at isFound
  · cases isFound
  · next attr isAttribute =>
    split at isFound
    · cases isFound
    · next isShown =>
      have admitted := legible.typed name isName attr isAttribute (by simpa using isShown) value isPresent
      rw [isPresent]
      rcases raw_of_recover legible isValue isEntry isPresent with rfl | rfl
      · -- only a text is read again
        split at isFound
        · next text => exact (AttributeType.eq_of_readKeyText? admitted isFound).symm ▸ rfl
        · exact isFound
      · exact (AttributeType.eq_of_readKeyText? admitted isFound).symm ▸ rfl

/-! ## All parts -/

theorem within_recovered
    (tells : ∀ part ∈ entity.parts, ∀ physical, shown.get? part.attr = some physical →
      part.names ≠ [] → entity.Legible attributes part ∧
        part.template.interpolate .strict attributes = .ok physical) :
    (entity.recovered shown).Within attributes := by
  refine recovered_induction (motive := (Item.Within · attributes)) (by rintro name value ⟨⟩) ?_
  intro recovered within part isPart physical isShown name raw isEntry _ value isValue other found isFound
  rw [NameMap.get?_insert] at isFound
  split at isFound
  · next same =>
    obtain rfl := same
    obtain rfl := Option.some.inj isFound
    have namesSome : part.names ≠ [] := List.ne_nil_of_mem (Template.mem_names_of_recover isEntry)
    obtain ⟨legible, isPhysical⟩ := tells part isPart physical isShown namesSome
    have isPresent := recoveredValue?_of_legible legible isPhysical isEntry isValue
    exact (Option.filter_eq_some_iff.1 isPresent).1
  · exact within other found isFound

/-! ## Parts of items that were written -/

/-- What an item has under a key part was made by its template, unless it is the marker or was brought
along for an index that is left out. -/
theorem interpolate_of_toPhysical (nodup : entity.physicalAttributes.Nodup)
    (written : entity.toPhysical draw attributes = .ok item) {part : KeyPart}
    (isPart : part ∈ entity.parts) (notMarker : part.attr ≠ entityMarker)
    (notBrought : ∀ index ∈ entity.indexes, part ∈ index.parts →
      (∃ name ∈ index.names, (entity.applyDefaults draw attributes).present? name = none) →
      (entity.applyDefaults draw attributes).get? part.attr = none)
    {physical : Value} (isStored : item.get? part.attr = some physical) :
    part.template.interpolate .strict (entity.applyDefaults draw attributes) = .ok physical := by
  rcases List.mem_append.1 isPart with isKeyPart | isIndexPart
  · obtain ⟨value, isValue, stored⟩ := get?_toPhysical_of_key nodup written isKeyPart
    rw [stored notMarker] at isStored
    rwa [← Option.some.inj isStored]
  · obtain ⟨index, isIndex, isIndexPart⟩ := List.mem_flatMap.1 isIndexPart
    rcases toPhysical_index_cases nodup written isIndex with isWritten | ⟨-, isLeftOut, unchanged⟩
    · obtain ⟨value, isValue, stored⟩ := isWritten part isIndexPart
      rw [stored notMarker] at isStored
      rw [← Option.some.inj isStored]
      exact Template.interpolate_eq_ok (fun _ _ => rfl) isValue
    · rw [unchanged part isIndexPart notMarker, notBrought index isIndex isIndexPart isLeftOut] at isStored
      cases isStored

/-- Whatever part of an item is read, no attribute has another value than the item was written from,
provided that the key parts that are read can be read in one way only, that nothing is taken for a key
that its template has not made, and that the keys of the entity are apart from its attributes. -/
theorem within_toLogical (nodup : entity.physicalAttributes.Nodup)
    (apart : ∀ name ∈ entityMarker :: entity.physicalAttributes, name ∉ entity.attributeNames)
    (marked : ∀ part ∈ entity.parts, part.attr = entityMarker → part.names = [])
    (notBrought : ∀ index ∈ entity.indexes,
      (∃ name ∈ index.names, (entity.applyDefaults draw attributes).present? name = none) →
      ∀ part ∈ index.parts, part.names ≠ [] → attributes.present? part.attr = none)
    (written : entity.toPhysical draw attributes = .ok item) (isShown : shown.Within item)
    (legible : ∀ part ∈ entity.parts, shown.contains part.attr = true →
      entity.Legible (entity.applyDefaults draw attributes) part) :
    (entity.toLogical shown).Within (entity.applyDefaults draw attributes) := by
  have recoveredWithin : (entity.recovered shown).Within (entity.applyDefaults draw attributes) := by
    apply within_recovered
    intro part isPart physical isPhysical namesSome
    refine ⟨legible part isPart (by simp [NameMap.contains, isPhysical]), ?_⟩
    refine interpolate_of_toPhysical nodup written isPart (fun isMarker => namesSome
      (marked part isPart isMarker)) ?_ (isShown _ _ isPhysical)
    intro index isIndex isIndexPart isLeftOut
    have isPhysicalName : part.attr ∈ entityMarker :: entity.physicalAttributes :=
      List.mem_cons_of_mem _ (List.mem_map.2 ⟨part, isPart, rfl⟩)
    rw [get?_applyDefaults_of_not_mem (apart _ isPhysicalName)]
    exact notBrought index isIndex isLeftOut part isIndexPart namesSome
  intro name value isFound
  rw [toLogical, NameMap.get?_union, Option.or_eq_some_iff] at isFound
  rcases isFound with isKept | ⟨-, isRecovered⟩
  · rw [NameMap.get?_filter] at isKept
    obtain ⟨isStored, notStripped⟩ := Option.filter_eq_some_iff.1 isKept
    simp only [isStripped, Bool.not_eq_true', Bool.or_eq_false_iff, beq_eq_false_iff_ne,
      List.contains_eq_mem, decide_eq_false_iff_not] at notStripped
    obtain ⟨⟨notPhysical, notMarker⟩, -⟩ := notStripped
    rw [← get?_toPhysical_of_not_physical written notPhysical notMarker]
    exact isShown name value isStored
  · exact recoveredWithin name value isRecovered

end Entity

/-! ## Events read from their keys -/

def eventTable (roomKey : String) : Table := .ofIndexes
  [("GSI1", ⟨.globalIndex, some "GSI1PK", "GSI1SK", true⟩),
    ("GSI2", ⟨.globalIndex, some "GSI2PK", "GSI2SK", true⟩),
    ("GSI3", ⟨.globalIndex, some "GSI3PK", "GSI3SK", true⟩),
    ("GSI4", ⟨.globalIndex, some "GSI4PK", roomKey, true⟩)]

def eventDeclaration (roomKey : String) : Declaration where
  name := "EVENT"
  table := some (eventTable roomKey)
  key := ⟨.text "\x7b\x7bkind\x7d\x7d#\x7b\x7bid\x7d\x7d", none⟩
  indexes := [
    ("GSI1", ⟨.globalIndex, some (.text "NOTES"), .text "NOTE#\x7b\x7bnote\x7d\x7d", none⟩),
    ("GSI2", ⟨.globalIndex, some (.text "RANKS"), .text "\x7b\x7brank\x7d\x7d", none⟩),
    ("GSI3", ⟨.globalIndex, some (.text "TEAMS"), .text "TEAM#\x7b\x7bteam\x7d\x7d", none⟩),
    ("GSI4", ⟨.globalIndex, some (.text "ROOMS"), .text "\x7b\x7broom\x7d\x7d", none⟩)]
  attributes := [{ name := "kind", type := .string }, { name := "id", type := .string },
    { name := "note", type := .string }, { name := "rank", type := .number },
    { name := "team", type := .string }, { name := "room", type := .string }]

def eventEntity (roomKey : String) : Entity where
  name := "EVENT"
  table := eventTable roomKey
  attributes := (eventDeclaration roomKey).attributes
  key := ⟨⟨"PK", .text "\x7b\x7bkind\x7d\x7d#\x7b\x7bid\x7d\x7d"⟩, none⟩
  indexes := [
    ⟨"GSI1", .globalIndex, some ⟨"GSI1PK", .text "NOTES"⟩,
      ⟨"GSI1SK", .text "NOTE#\x7b\x7bnote\x7d\x7d"⟩, true⟩,
    ⟨"GSI2", .globalIndex, some ⟨"GSI2PK", .text "RANKS"⟩, ⟨"GSI2SK", .text "\x7b\x7brank\x7d\x7d"⟩, true⟩,
    ⟨"GSI3", .globalIndex, some ⟨"GSI3PK", .text "TEAMS"⟩,
      ⟨"GSI3SK", .text "TEAM#\x7b\x7bteam\x7d\x7d"⟩, true⟩,
    ⟨"GSI4", .globalIndex, some ⟨"GSI4PK", .text "ROOMS"⟩, ⟨roomKey, .text "\x7b\x7broom\x7d\x7d"⟩, true⟩]
  uniques := []

def listedEvents : Entity := eventEntity "GSI4SK"

def markedEvents : Entity := eventEntity entityMarker

theorem compile_markedEvents : (eventDeclaration entityMarker).compile none = .ok markedEvents := by
  with_unfolding_all rfl

def eventDraw : String → Moment := fun _ => ⟨0, fun _ => 0⟩

def plainEvent : Item :=
  .ofList [("kind", .string "talk"), ("id", .string "1#2"), ("note", .string "at noon"),
    ("rank", .number "5")]

/-- The keys of an event show its attributes as they are. -/
theorem within_plainEvent :
    ∃ item, listedEvents.toPhysical eventDraw plainEvent = .ok item ∧
      let keys := item.filter fun name _ => listedEvents.physicalAttributes.contains name
      listedEvents.toLogical keys = plainEvent ∧
        (listedEvents.toLogical keys).Within (listedEvents.applyDefaults eventDraw plainEvent) := by
  have apart : ∀ name ∈ entityMarker :: listedEvents.physicalAttributes,
      name ∉ listedEvents.attributeNames := by decide
  have notBrought : ∀ index ∈ listedEvents.indexes, ∀ part ∈ index.parts,
      plainEvent.present? part.attr = none := by decide +kernel
  have legible : ∀ part ∈ listedEvents.parts,
      listedEvents.Legible (listedEvents.applyDefaults eventDraw plainEvent) part := by decide +kernel
  have shows : (listedEvents.toPhysical eventDraw plainEvent).toOption.map (fun item =>
      listedEvents.toLogical (item.filter fun name _ =>
        listedEvents.physicalAttributes.contains name)) = some plainEvent := by decide +kernel
  cases written : listedEvents.toPhysical eventDraw plainEvent with
  | error error => simp [written, Except.toOption] at shows
  | ok item =>
    rw [written] at shows
    refine ⟨item, rfl, Option.some.inj shows, ?_⟩
    exact Entity.within_toLogical (by decide) apart (by decide)
      (fun index isIndex _ part isPart _ => notBrought index isIndex part isPart) written
      (Item.within_filter _ _) fun part isPart _ => legible part isPart

/-- An event whose kind has the separator and whose note has two lines, with a text for its rank and a
key of an index it is not in. -/
def awkwardEvent : Item :=
  .ofList [("kind", .string "a#b"), ("id", .string "1"), ("note", .string "first\nsecond"),
    ("rank", .string "5"), ("GSI3SK", .string "TEAM#red")]

def awkwardKeys : List (String × String) :=
  [("PK", "kind"), ("GSI1SK", "note"), ("GSI2SK", "rank"), ("GSI3SK", "team"), (entityMarker, "room")]

/-- Each of these makes some key of the event show what the event does not have, and so does the marker
if it is a key of an index. -/
theorem not_within_awkwardEvent :
    (eventDeclaration entityMarker).compile none = .ok markedEvents ∧
      markedEvents.physicalAttributes.Nodup ∧
      (∀ name ∈ entityMarker :: markedEvents.physicalAttributes, name ∉ markedEvents.attributeNames) ∧
      ∃ item, markedEvents.toPhysical eventDraw awkwardEvent = .ok item ∧
        ∀ key ∈ awkwardKeys, ∃ shown : Item, shown.entries.map (·.1) = [key.1] ∧ shown.Within item ∧
          ¬ (markedEvents.toLogical shown).Within (markedEvents.applyDefaults eventDraw awkwardEvent) := by
  refine ⟨compile_markedEvents, by decide, by decide, ?_⟩
  have misreads : (markedEvents.toPhysical eventDraw awkwardEvent).toOption.any (fun item =>
      awkwardKeys.all fun key =>
        ((item.filter fun name _ => name == key.1).entries.map (·.1) == [key.1]) &&
        ((markedEvents.toLogical (item.filter fun name _ => name == key.1)).get? key.2).any fun value =>
          (markedEvents.applyDefaults eventDraw awkwardEvent).get? key.2 ≠ some value) = true := by
    decide +kernel
  cases written : markedEvents.toPhysical eventDraw awkwardEvent with
  | error error => simp [written, Except.toOption] at misreads
  | ok item =>
    simp only [written, Except.toOption, Option.any_some, List.all_eq_true, Bool.and_eq_true,
      beq_iff_eq] at misreads
    refine ⟨item, rfl, fun key isKey => ⟨item.filter fun name _ => name == key.1, ?_⟩⟩
    obtain ⟨isAlone, isMisread⟩ := misreads key isKey
    refine ⟨isAlone, Item.within_filter _ _, fun within => ?_⟩
    obtain ⟨value, isFound, differs⟩ := (Option.any_eq_true _ _).1 isMisread
    simp [within key.2 value isFound] at differs

end SingleTable
