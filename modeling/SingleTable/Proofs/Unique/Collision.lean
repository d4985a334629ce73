import SingleTable.Connection
import SingleTable.Proofs.Unique.Records

/-!
# Records of different attributes

The records of an attribute have keys that start with its mark: the upper-cased names of the entity
and the attribute between separators.  Behind the mark stands any text, so records of two attributes
meet as soon as one mark starts the other, and only then (`Registry.recordsApart_iff`).  The names of
registered entities differ, but not so their upper case, and the separators may stand in names.
-/

namespace SingleTable

/-! ## Registered entities -/

namespace Registry

theorem entities_of_register {registry after : Registry} {defaultTable : Option Table}
    {typeName : String} {declaration : Declaration}
    (registered : registry.register defaultTable typeName declaration = .ok after) :
    ∃ entity, declaration.compile defaultTable = .ok entity ∧
      (∀ other ∈ registry.entities, other.name ≠ entity.name) ∧
      after.entities = registry.entities ++ [entity] := by
  obtain ⟨entity, compiled, rest⟩ := bind_eq_ok.1 registered
  dsimp only at rest
  split at rest
  · cases rest
  · next notFound =>
    obtain rfl := Except.ok.inj rest
    have notFound : registry.entity? entity.name = none := by simpa using notFound
    exact ⟨entity, compiled, by simpa [entity?] using notFound, by simp [entities]⟩

/-- Registered entities have different names, and each is compiled from a declaration. -/
structure Compiled (registry : Registry) (defaultTable : Option Table) : Prop where
  nodup : (registry.entities.map (·.name)).Nodup
  compiled : ∀ entity ∈ registry.entities, ∃ declaration : Declaration,
    declaration.compile defaultTable = .ok entity

theorem Compiled.register {registry after : Registry} {defaultTable : Option Table}
    (compiled : registry.Compiled defaultTable) {typeName : String} {declaration : Declaration}
    (registered : registry.register defaultTable typeName declaration = .ok after) :
    after.Compiled defaultTable := by
  obtain ⟨entity, isEntity, isNew, entities_eq⟩ := entities_of_register registered
  constructor
  · rw [entities_eq, List.map_append, List.nodup_append]
    refine ⟨compiled.nodup, by simp, ?_⟩
    intro name isName other isOther
    obtain ⟨earlier, isEarlier, rfl⟩ := List.mem_map.1 isName
    rw [List.mem_singleton.1 isOther]
    exact isNew earlier isEarlier
  · intro other isOther
    rw [entities_eq] at isOther
    rcases List.mem_append.1 isOther with isEarlier | isLast
    · exact compiled.compiled other isEarlier
    · rw [List.mem_singleton.1 isLast]
      exact ⟨declaration, isEntity⟩

/-- Whatever is registered in turn keeps the entities apart by name. -/
theorem compiled_of_registerAll {registry after : Registry} {defaultTable : Option Table}
    (compiled : registry.Compiled defaultTable) {declarations : List (String × Declaration)}
    (registered : Connection.registerAll defaultTable declarations registry = .ok after) :
    after.Compiled defaultTable := by
  induction declarations generalizing registry with
  | nil =>
    obtain rfl := Except.ok.inj registered
    exact compiled
  | cons declared declarations inductionHypothesis =>
    obtain ⟨typeName, declaration⟩ := declared
    obtain ⟨next, isNext, rest⟩ := bind_eq_ok.1 registered
    exact inductionHypothesis (compiled.register isNext) rest

theorem compiled_empty (defaultTable : Option Table) : ({} : Registry).Compiled defaultTable :=
  ⟨List.nodup_nil, by simp [entities]⟩

/-! ## Attributes and their marks -/

/-- An attribute of a registered entity on a table that is unique by derived records, and their
layout. -/
structure Enforces (registry : Registry) (table : Table) (entity : Entity) (attr : Attribute)
    (unique : UniqueLayout) : Prop where
  isEntity : entity ∈ registry.entities
  onTable : entity.table = table
  isUnique : (attr, unique) ∈ (entity.attributes.filter (·.unique.isSome)).zip entity.uniques
  derived : attr.unique = some .derived

theorem Enforces.layout {registry : Registry} {defaultTable : Option Table} {table : Table}
    {entity : Entity} {attr : Attribute} {unique : UniqueLayout}
    (enforces : registry.Enforces table entity attr unique)
    (compiled : registry.Compiled defaultTable) :
    unique.attr = attr.name ∧ unique.key.parts = entity.table.keyAttributes.map
      (⟨·, Declaration.derivedUniqueTemplate entity.name attr.name⟩) := by
  obtain ⟨declaration, isCompiled⟩ := compiled.compiled entity enforces.isEntity
  have laysOut := Declaration.laysOut_of_compile isCompiled
  have laidOut := Declaration.uniquesOn_eq_ok laysOut.uniques
  rw [← laysOut.attributes] at laidOut
  obtain ⟨attr_eq, rule, isRule, isKey⟩ := List.forall₂_zip laidOut enforces.isUnique
  rw [enforces.derived] at isRule
  obtain rfl := Option.some.inj isRule
  rw [laysOut.name]
  exact ⟨attr_eq, Declaration.parts_of_derived isKey⟩

theorem Enforces.mem_attributes {registry : Registry} {table : Table} {entity : Entity}
    {attr : Attribute} {unique : UniqueLayout}
    (enforces : registry.Enforces table entity attr unique) : attr ∈ entity.attributes :=
  (List.mem_filter.1 (List.of_mem_zip enforces.isUnique).1).1

/-- A record belongs to one attribute of one entity, and to one text of it. -/
def RecordsApart (registry : Registry) (table : Table) : Prop :=
  ∀ {first second : Entity} {attr other : Attribute} {unique otherUnique : UniqueLayout},
    registry.Enforces table first attr unique → registry.Enforces table second other otherUnique →
    ∀ {attributes others record : Item}, unique.key.resolve attributes = .ok record →
      otherUnique.key.resolve others = .ok record →
      first = second ∧ attr.name = other.name ∧
        (attributes.present? attr.name).bind (·.keyText?) = (others.present? other.name).bind (·.keyText?)

/-- The mark of an attribute starts that of no other. -/
def MarksApart (registry : Registry) (table : Table) : Prop :=
  ∀ {first second : Entity} {attr other : Attribute} {unique otherUnique : UniqueLayout},
    registry.Enforces table first attr unique → registry.Enforces table second other otherUnique →
    (first.recordMark attr.name).toList <+: (second.recordMark other.name).toList →
      first.name = second.name ∧ attr.name = other.name

/-- Two marks before texts that come to the same: one starts the other. -/
theorem prefix_of_recordText {first second : Entity} {attr other text otherText : String}
    (same : first.recordText attr text = second.recordText other otherText) :
    (first.recordMark attr).toList <+: (second.recordMark other).toList ∨
      (second.recordMark other).toList <+: (first.recordMark attr).toList := by
  have lists_eq := congrArg String.toList same
  rw [Entity.recordText_eq, Entity.recordText_eq, String.toList_append, String.toList_append] at lists_eq
  refine List.prefix_or_prefix_of_prefix ⟨_, lists_eq⟩ (List.prefix_append _ _)

/-- Records of different attributes or texts have different keys if and only if no mark of an attribute
starts that of another, for names that open and close no placeholder. -/
theorem recordsApart_iff {defaultTable : Option Table} {declarations : List (String × Declaration)}
    {registry : Registry}
    (registered : Connection.registerAll defaultTable declarations {} = .ok registry) {table : Table}
    (plain : ∀ entity attr unique, registry.Enforces table entity attr unique →
      entity.SpellsPlainly attr.name) :
    registry.RecordsApart table ↔ registry.MarksApart table := by
  have compiled := compiled_of_registerAll (compiled_empty defaultTable) registered
  have resolve_iff {entity attr unique} (enforces : registry.Enforces table entity attr unique)
      {attributes record : Item} : unique.key.resolve attributes = .ok record ↔
        ∃ value text, attributes.present? attr.name = some value ∧ value.keyText? = some text ∧
          record = entity.recordKey attr.name text :=
    Entity.resolve_derived (plain _ _ _ enforces) (enforces.layout compiled).2
  constructor
  · intro apart first second attr other unique otherUnique enforces otherEnforces isPrefix
    -- what the longer mark has beyond the shorter one can be the text behind the shorter one
    obtain ⟨more, mark_eq⟩ := isPrefix
    have text_eq : first.recordText attr.name (String.ofList more) = second.recordText other.name "" := by
      rw [Entity.recordText_eq, Entity.recordText_eq, String.append_empty, ← String.toList_inj,
        String.toList_append, String.toList_ofList, mark_eq]
    have isRecord := (resolve_iff enforces).2
      ⟨.string (String.ofList more), _, Entity.present?_single rfl, rfl, rfl⟩
    have isOther := (resolve_iff otherEnforces).2 ⟨.string "", _, Entity.present?_single rfl, rfl, rfl⟩
    rw [← (Entity.recordKey_eq_iff (enforces.onTable.trans otherEnforces.onTable.symm)).2 text_eq]
      at isOther
    obtain ⟨rfl, names_eq, -⟩ := apart enforces otherEnforces isRecord isOther
    exact ⟨rfl, names_eq⟩
  · intro apart first second attr other unique otherUnique enforces otherEnforces attributes others
      record isRecord isOther
    obtain ⟨value, text, isPresent, text_eq, rfl⟩ := (resolve_iff enforces).1 isRecord
    obtain ⟨otherValue, otherText, isOtherPresent, otherText_eq, key_eq⟩ :=
      (resolve_iff otherEnforces).1 isOther
    have same := (Entity.recordKey_eq_iff (enforces.onTable.trans otherEnforces.onTable.symm)).1 key_eq
    have names_eq : first.name = second.name ∧ attr.name = other.name := by
      rcases prefix_of_recordText same with isPrefix | isPrefix
      · exact apart enforces otherEnforces isPrefix
      · exact (apart otherEnforces enforces isPrefix).imp Eq.symm Eq.symm
    obtain rfl : first = second := List.inj_on_of_nodup_map compiled.nodup enforces.isEntity
      otherEnforces.isEntity names_eq.1
    refine ⟨rfl, names_eq.2, ?_⟩
    rw [names_eq.2, Entity.recordText_eq, Entity.recordText_eq, String.append_right_inj] at same
    rw [isPresent, isOtherPresent, Option.bind_some, Option.bind_some, text_eq, otherText_eq, same]

/-- Marks are apart if the names are: without the separators in upper case, and different there. -/
theorem marksApart_of_upper {registry : Registry} {defaultTable : Option Table}
    (compiled : registry.Compiled defaultTable) {table : Table}
    (separated : ∀ entity attr unique, registry.Enforces table entity attr unique →
      '.' ∉ (Text.upper entity.name).toList ∧ '#' ∉ (Text.upper attr.name).toList)
    (entitiesApart : ∀ first ∈ registry.entities, ∀ second ∈ registry.entities,
      Text.upper first.name = Text.upper second.name → first.name = second.name)
    (attributesApart : ∀ entity ∈ registry.entities, ∀ attr ∈ entity.attributes,
      ∀ other ∈ entity.attributes, Text.upper attr.name = Text.upper other.name →
        attr.name = other.name) : registry.MarksApart table := by
  intro first second attr other unique otherUnique enforces otherEnforces isPrefix
  obtain ⟨more, mark_eq⟩ := isPrefix
  have split_eq : (Text.upper first.name).toList ++ '.' :: ((Text.upper attr.name).toList ++ '#' :: more) =
      (Text.upper second.name).toList ++ '.' :: ((Text.upper other.name).toList ++ '#' :: []) := by
    have dot_eq : ".".toList = ['.'] := rfl
    simpa [Entity.toList_recordMark, String.toList_append, dot_eq, List.append_assoc] using mark_eq
  obtain ⟨noDot, noHash⟩ := separated _ _ _ enforces
  obtain ⟨noOtherDot, noOtherHash⟩ := separated _ _ _ otherEnforces
  -- the first dot ends the name of the entity, and the first `#` behind it that of the attribute
  obtain ⟨entities_eq, rest_eq⟩ := Entity.eq_of_append_mark noDot noOtherDot split_eq
  obtain ⟨attributes_eq, -⟩ := Entity.eq_of_append_mark noHash noOtherHash rest_eq
  have names_eq := entitiesApart _ enforces.isEntity _ otherEnforces.isEntity
    (String.toList_inj.1 entities_eq)
  obtain rfl : first = second := List.inj_on_of_nodup_map compiled.nodup enforces.isEntity
    otherEnforces.isEntity names_eq
  exact ⟨rfl, attributesApart first enforces.isEntity attr enforces.mem_attributes other
    otherEnforces.mem_attributes (String.toList_inj.1 attributes_eq)⟩

end Registry

/-! ## Accounts of several kinds -/

def accountDeclaration (name attr : String) : Declaration where
  name
  key := ⟨.text "ACCOUNT#\x7b\x7bid\x7d\x7d", none⟩
  attributes := [{ name := "id", type := .string },
    { name := attr, type := .string, unique := some .derived }]

def accountEntity (name attr : String) : Entity where
  name
  table := usersTable
  attributes := (accountDeclaration name attr).attributes
  key := ⟨⟨"PK", .text "ACCOUNT#\x7b\x7bid\x7d\x7d"⟩, none⟩
  indexes := []
  uniques := [⟨attr, ⟨⟨"PK", Declaration.derivedUniqueTemplate name attr⟩, none⟩⟩]

def accountRegistry : Registry where
  registrations := [⟨"User", accountEntity "USER" "email"⟩, ⟨"Team", accountEntity "TEAM" "email"⟩]

theorem registerAll_accounts : Connection.registerAll (some usersTable)
    [("User", accountDeclaration "USER" "email"), ("Team", accountDeclaration "TEAM" "email")] {} =
      .ok accountRegistry := by
  with_unfolding_all rfl

def Registry.recordOf (registry : Registry) (name attr text : String) : Option Item :=
  (registry.entity? name).bind fun entity =>
    (entity.uniqueRecord attr (.string text)).toOption.join

theorem name_of_enforces_accounts {entity : Entity} {attr : Attribute} {unique : UniqueLayout}
    (enforces : accountRegistry.Enforces usersTable entity attr unique) :
    entity.name ∈ ["USER", "TEAM"] ∧ attr.name = "email" := by
  have isUnique := enforces.isUnique
  have isEntity : entity = accountEntity "USER" "email" ∨ entity = accountEntity "TEAM" "email" := by
    simpa [Registry.entities, accountRegistry] using enforces.isEntity
  rcases isEntity with rfl | rfl
  · simp [accountEntity, accountDeclaration] at isUnique
    simp [accountEntity, isUnique]
  · simp [accountEntity, accountDeclaration] at isUnique
    simp [accountEntity, isUnique]

/-- Users and teams may have the same email: they have records of their own for it. -/
theorem recordsApart_accounts :
    (∃ record other, accountRegistry.recordOf "USER" "email" "a@x" = some record ∧
      accountRegistry.recordOf "TEAM" "email" "a@x" = some other) ∧
    accountRegistry.RecordsApart usersTable := by
  have spelled : ∀ name ∈ ["USER", "TEAM"],
      Template.splitPair '\x7b' ((accountEntity name "email").recordMark "email").toList = none ∧
        '.' ∉ (Text.upper name).toList := by decide +kernel
  have plain : ∀ entity attr unique, accountRegistry.Enforces usersTable entity attr unique →
      entity.SpellsPlainly attr.name := by
    intro entity attr unique enforces
    obtain ⟨isName, attr_eq⟩ := name_of_enforces_accounts enforces
    rw [attr_eq]
    exact ⟨(spelled _ isName).1, by decide +kernel, by decide +kernel, by decide +kernel⟩
  have compiled := Registry.compiled_of_registerAll (Registry.compiled_empty _) registerAll_accounts
  refine ⟨?_, (Registry.recordsApart_iff registerAll_accounts plain).2 ?_⟩
  · have found : (accountRegistry.recordOf "USER" "email" "a@x").isSome = true ∧
        (accountRegistry.recordOf "TEAM" "email" "a@x").isSome = true := by decide +kernel
    obtain ⟨record, isRecord⟩ := Option.isSome_iff_exists.1 found.1
    obtain ⟨other, isOther⟩ := Option.isSome_iff_exists.1 found.2
    exact ⟨record, other, isRecord, isOther⟩
  · refine Registry.marksApart_of_upper compiled ?_ (by decide +kernel) (by decide +kernel)
    intro entity attr unique enforces
    obtain ⟨isName, attr_eq⟩ := name_of_enforces_accounts enforces
    exact ⟨(spelled _ isName).2, by rw [attr_eq]; decide +kernel⟩

/-- Users in two spellings have the same email only once, and so have all accounts if a kind has the
name of a placeholder. -/
theorem collides_spellings : ∃ registry,
    Connection.registerAll (some usersTable) [("Upper", accountDeclaration "USER" "email"),
      ("Lower", accountDeclaration "User" "email"),
      ("Open", accountDeclaration "\x7b\x7bEMAIL\x7d\x7d" "EMAIL")] {} = .ok registry ∧
    (∀ entity ∈ registry.entities, entity.table = usersTable) ∧
    ∃ record other, registry.recordOf "USER" "email" "a@x" = some record ∧
      registry.recordOf "User" "email" "a@x" = some record ∧
      registry.recordOf "USER" "email" "USER" = some other ∧
      registry.recordOf "\x7b\x7bEMAIL\x7d\x7d" "EMAIL" "USER" = some other := by
  have runs : (Connection.registerAll (some usersTable) [("Upper", accountDeclaration "USER" "email"),
      ("Lower", accountDeclaration "User" "email"),
      ("Open", accountDeclaration "\x7b\x7bEMAIL\x7d\x7d" "EMAIL")] {}).toOption.any (fun registry =>
        registry.entities.all (fun entity => entity.table = usersTable) &&
        (registry.recordOf "USER" "email" "a@x").isSome &&
        registry.recordOf "User" "email" "a@x" == registry.recordOf "USER" "email" "a@x" &&
        (registry.recordOf "USER" "email" "USER").isSome &&
        registry.recordOf "\x7b\x7bEMAIL\x7d\x7d" "EMAIL" "USER" ==
          registry.recordOf "USER" "email" "USER") = true := by decide +kernel
  cases registered : Connection.registerAll (some usersTable)
      [("Upper", accountDeclaration "USER" "email"), ("Lower", accountDeclaration "User" "email"),
        ("Open", accountDeclaration "\x7b\x7bEMAIL\x7d\x7d" "EMAIL")] {} with
  | error error => simp [registered, Except.toOption] at runs
  | ok registry =>
    simp only [registered, Except.toOption, Option.any_some, Bool.and_eq_true, List.all_eq_true,
      decide_eq_true_eq, beq_iff_eq] at runs
    obtain ⟨⟨⟨⟨onTable, isSome⟩, same⟩, isOtherSome⟩, sameOther⟩ := runs
    obtain ⟨record, isRecord⟩ := Option.isSome_iff_exists.1 isSome
    obtain ⟨other, isOther⟩ := Option.isSome_iff_exists.1 isOtherSome
    exact ⟨registry, rfl, onTable, record, other, isRecord, same.trans isRecord, isOther,
      sameOther.trans isOther⟩

end SingleTable
