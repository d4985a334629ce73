import Mathlib.Data.List.Nodup
import SingleTable.Proofs.Entity.Item
import SingleTable.Proofs.Service.Store
import SingleTable.Proofs.Template.Segments

/-!
# Records of unique values

A unique value is held by a record: an item whose whole key is a text that names the entity, the
attribute and the value.  Records of different values have different keys, provided that the
names of the attributes differ in upper case and the name of the entity opens no placeholder.
-/

namespace SingleTable

open Grammar

/-! ## Upper case -/

namespace Text

/-- The upper case of an ASCII word is free of the characters with a meaning in templates. -/
theorem upperChar_of_isWordChar {c : Char} (isWord : isWordChar c = true) (ascii : c.toNat < 0x80) :
    '#' ∉ upperChar c ∧ '\x7b' ∉ upperChar c := by
  have each : ∀ n < 0x80, isWordChar (Char.ofNat n) = true →
      '#' ∉ upperChar (Char.ofNat n) ∧ '\x7b' ∉ upperChar (Char.ofNat n) := by decide +kernel
  have checked := each c.toNat ascii
  rw [Char.ofNat_toNat] at checked
  exact checked isWord

theorem toList_upper (s : String) : (upper s).toList = s.toList.flatMap upperChar := by
  simp [upper]

theorem not_mem_upper {s : String} (isWord : IsWord s) (ascii : ∀ c ∈ s.toList, c.toNat < 0x80) :
    '#' ∉ (upper s).toList ∧ '\x7b' ∉ (upper s).toList := by
  rw [toList_upper]
  constructor
  · intro isMember
    obtain ⟨c, isChar, isUpper⟩ := List.mem_flatMap.1 isMember
    exact (upperChar_of_isWordChar (isWord c isChar) (ascii c isChar)).1 isUpper
  · intro isMember
    obtain ⟨c, isChar, isUpper⟩ := List.mem_flatMap.1 isMember
    exact (upperChar_of_isWordChar (isWord c isChar) (ascii c isChar)).2 isUpper

theorem isWordChar_ascii {c : Char} (isWord : isWordChar c = true) (ascii : c.toNat < 0x80) :
    isBlank c = false ∧ c ≠ '\x7d' := by
  have each : ∀ n < 0x80, isWordChar (Char.ofNat n) = true →
      isBlank (Char.ofNat n) = false ∧ Char.ofNat n ≠ '\x7d' := by decide +kernel
  have checked := each c.toNat ascii
  rw [Char.ofNat_toNat] at checked
  exact checked isWord

end Text

/-! ## Layouts -/

namespace Declaration

variable {declaration : Declaration}

def uniqueAttributes (declaration : Declaration) : List Attribute :=
  declaration.attributes.filter (·.unique.isSome)

/-- All records are derived, and their keys tell the attributes apart. -/
structure DerivesRecords (declaration : Declaration) : Prop where
  derived : ∀ attr ∈ declaration.attributes, ∀ rule ∈ attr.unique, rule = .derived
  ascii : ∀ attr ∈ declaration.uniqueAttributes, ∀ c ∈ attr.name.toList, c.toNat < 0x80
  apart : (declaration.uniqueAttributes.map fun attr => Text.upper attr.name).Nodup

/-- Nothing in the upper case of the name opens a placeholder. -/
def PlainlyNamed (declaration : Declaration) : Prop :=
  Template.splitPair '\x7b' (Text.upper declaration.name).toList = none

theorem parts_of_derived {table : Table} {attr : String} {key : Key}
    (isKey : declaration.keyOn table (.unique attr)
      (declaration.uniqueTemplates table attr .derived) = .ok key) :
    key.parts = table.keyAttributes.map (⟨·, derivedUniqueTemplate declaration.name attr⟩) := by
  obtain ⟨partition_eq, sort_eq, -, -⟩ := keyOn_eq_ok isKey
  rw [Key.parts, partition_eq, sort_eq]
  cases sortKey : table.sortKey with
  | none => simp [uniqueTemplates, Table.isComposite, Table.keyAttributes, sortKey]
  | some sort => simp [uniqueTemplates, Table.isComposite, Table.keyAttributes, sortKey]

end Declaration

namespace Entity

def uniqueNames (entity : Entity) : List String := entity.uniques.map (·.attr)

theorem uniqueNames_eq {declaration : Declaration} {entity : Entity}
    (laysOut : declaration.LaysOut entity) :
    entity.uniqueNames = declaration.uniqueAttributes.map (·.name) := by
  have laidOut := Declaration.uniquesOn_eq_ok laysOut.uniques
  unfold uniqueNames Declaration.uniqueAttributes
  generalize declaration.attributes.filter (·.unique.isSome) = attributes at laidOut
  generalize entity.uniques = uniques at laidOut
  clear laysOut
  induction laidOut with
  | nil => rfl
  | cons isLaidOut _ inductionHypothesis => simp [isLaidOut.1, inductionHypothesis]

/-- An entity whose unique attributes are enforced by derived records with keys of their own. -/
structure Enforces (entity : Entity) : Prop where
  wellNamed : entity.WellNamed
  keyed : entity.key.parts.map (·.attr) = entity.table.keyAttributes
  parts : ∀ unique ∈ entity.uniques, unique.key.parts =
    entity.table.keyAttributes.map (⟨·, Declaration.derivedUniqueTemplate entity.name unique.attr⟩)
  declared : ∀ name ∈ entity.uniqueNames, name ∈ entity.attributeNames
  ascii : ∀ name ∈ entity.uniqueNames, ∀ c ∈ name.toList, c.toNat < 0x80
  apart : (entity.uniqueNames.map Text.upper).Nodup
  literalName : Template.splitPair '\x7b' (Text.upper entity.name).toList = none

theorem enforces_of_compile {declaration : Declaration} {defaultTable : Option Table}
    {entity : Entity} (compiled : declaration.compile defaultTable = .ok entity)
    (wellNamed : entity.WellNamed) (derives : declaration.DerivesRecords)
    (plainlyNamed : declaration.PlainlyNamed) : entity.Enforces := by
  have laysOut := Declaration.laysOut_of_compile compiled
  have laidOut := Declaration.uniquesOn_eq_ok laysOut.uniques
  have names_eq := uniqueNames_eq laysOut
  have ofAttribute : ∀ name ∈ entity.uniqueNames, ∃ attr ∈ declaration.uniqueAttributes,
      attr.name = name := by
    intro name isUnique
    rw [names_eq] at isUnique
    exact List.mem_map.1 isUnique
  constructor
  · exact wellNamed
  · exact (Declaration.keyOn_eq_ok laysOut.key).2.2.1
  · intro unique isUnique
    obtain ⟨attr, isAttribute, attr_eq, rule, isRule, isKey⟩ := exists_of_forall₂ laidOut isUnique
    obtain rfl := derives.derived attr (List.mem_filter.1 isAttribute).1 rule isRule
    rw [laysOut.name, attr_eq]
    exact Declaration.parts_of_derived isKey
  · intro name isUnique
    obtain ⟨attr, isAttribute, rfl⟩ := ofAttribute name isUnique
    rw [attributeNames, laysOut.attributes]
    exact List.mem_map.2 ⟨attr, (List.mem_filter.1 isAttribute).1, rfl⟩
  · intro name isUnique
    obtain ⟨attr, isAttribute, rfl⟩ := ofAttribute name isUnique
    exact derives.ascii attr isAttribute
  · rw [names_eq, List.map_map]
    exact derives.apart
  · rw [laysOut.name]
    exact plainlyNamed

/-! ## Keys of records -/

def recordText (entity : Entity) (attr text : String) : String :=
  uniqueMark ++ Text.upper entity.name ++ "." ++ Text.upper attr ++ "#" ++ text

def recordMark (entity : Entity) (attr : String) : String :=
  uniqueMark ++ Text.upper entity.name ++ "." ++ Text.upper attr ++ "#"

theorem recordText_eq (entity : Entity) (attr text : String) :
    entity.recordText attr text = entity.recordMark attr ++ text := rfl

/-- The template of the records of an attribute has one placeholder, which names the attribute. -/
structure SpellsPlainly (entity : Entity) (attr : String) : Prop where
  noOpening : Template.splitPair '\x7b' (entity.recordMark attr).toList = none
  noClosing : Template.splitPair '\x7d' attr.toList = none
  apart : attr.toList.getLast? ≠ some '\x7d'
  noBlanks : Text.trim attr.toList = attr.toList

theorem toList_recordText (entity : Entity) (attr text : String) :
    (entity.recordText attr text).toList = (uniqueMark ++ Text.upper entity.name ++ ".").toList ++
      ((Text.upper attr).toList ++ '#' :: text.toList) := by
  have mark_eq : "#".toList = ['#'] := rfl
  rw [recordText, String.toList_append, String.toList_append, String.toList_append, mark_eq]
  simp only [List.append_assoc, List.singleton_append]

def recordKey (entity : Entity) (attr text : String) : Item :=
  NameMap.ofList (entity.table.keyAttributes.map fun name =>
    (name, .string (entity.recordText attr text)))

def IsRecord (entity : Entity) (key : Item) : Prop :=
  ∃ attr value, entity.uniqueRecord attr value = .ok (some key)

theorem get?_insertAll_same {item : Item} {names : List String} {value : Value} (name : String) :
    NameMap.get? (item.insertAll (names.map fun name => (name, value))) name =
      if name ∈ names then some value else item.get? name := by
  induction names generalizing item with
  | nil => rfl
  | cons first names inductionHypothesis =>
    rw [List.map_cons, NameMap.insertAll, List.foldl_cons, ← NameMap.insertAll,
      inductionHypothesis, NameMap.get?_insert]
    by_cases isLater : name ∈ names
    · simp [isLater]
    · by_cases isFirst : first = name
      · simp [isFirst]
      · simp [isLater, isFirst, Ne.symm isFirst]

/-- The first mark tells two texts apart. -/
theorem eq_of_append_mark {mark : Char} {first second rest otherRest : List Char}
    (absentFirst : mark ∉ first) (absentSecond : mark ∉ second)
    (same : first ++ mark :: rest = second ++ mark :: otherRest) :
    first = second ∧ rest = otherRest := by
  induction first generalizing second with
  | nil =>
    cases second with
    | nil => exact ⟨rfl, (List.cons.inj same).2⟩
    | cons c second => exact absurd (List.cons.inj same).1 (by rintro rfl; simp at absentSecond)
  | cons c first inductionHypothesis =>
    cases second with
    | nil => exact absurd (List.cons.inj same).1 (by rintro rfl; simp at absentFirst)
    | cons d second =>
      obtain ⟨rfl, tails_eq⟩ := List.cons.inj same
      rw [List.mem_cons, not_or] at absentFirst absentSecond
      obtain ⟨rfl, rfl⟩ := inductionHypothesis absentFirst.2 absentSecond.2 tails_eq
      exact ⟨rfl, rfl⟩

section Keys

variable {entity : Entity}

theorem get?_recordKey {attr text name : String} (isKey : name ∈ entity.table.keyAttributes) :
    (entity.recordKey attr text).get? name = some (.string (entity.recordText attr text)) := by
  rw [recordKey, NameMap.ofList, get?_insertAll_same, if_pos isKey]

theorem keyOf?_recordKey (attr text : String) :
    entity.table.keyOf? (entity.recordKey attr text) = some (entity.recordKey attr text) := by
  apply Table.keyOf?_eq_some
  · intro name _
    rfl
  · intro name isKey
    rw [NameMap.contains, get?_recordKey isKey, Option.isSome_some]
  · intro name notKey
    rw [recordKey, NameMap.ofList, get?_insertAll_same, if_neg notKey, NameMap.get?_empty]

/-- Entities of one table share a record if and only if its texts are the same. -/
theorem recordKey_eq_iff {other : Entity} (sameTable : entity.table = other.table)
    {attr otherAttr text otherText : String} :
    entity.recordKey attr text = other.recordKey otherAttr otherText ↔
      entity.recordText attr text = other.recordText otherAttr otherText := by
  constructor
  · intro same
    have isKey : entity.table.partitionKey ∈ entity.table.keyAttributes := by
      simp [Table.keyAttributes]
    have isOtherKey : entity.table.partitionKey ∈ other.table.keyAttributes := sameTable ▸ isKey
    have values_eq := congrArg (NameMap.get? · entity.table.partitionKey) same
    simpa only [get?_recordKey isKey, get?_recordKey isOtherKey, Option.some.injEq,
      Value.string.injEq] using values_eq
  · intro same
    rw [recordKey, recordKey, sameTable, same]

/-- A mark ends in `#`. -/
theorem toList_recordMark (entity : Entity) (attr : String) :
    (entity.recordMark attr).toList =
      (uniqueMark ++ Text.upper entity.name ++ "." ++ Text.upper attr).toList ++ ['#'] := by
  rw [recordMark, String.toList_append]
  rfl

theorem segments_derived {attr : String} (plain : entity.SpellsPlainly attr) :
    Template.segments (entity.recordMark attr ++ "\x7b\x7b" ++ attr ++ "\x7d\x7d").toList =
      [.literal (entity.recordMark attr).toList, .placeholder attr.toList] := by
  have open_eq : "\x7b\x7b".toList = ['\x7b', '\x7b'] := rfl
  have close_eq : "\x7d\x7d".toList = ['\x7d', '\x7d'] := rfl
  have endsInMark : (entity.recordMark attr).toList.getLast? ≠ some '\x7b' := by
    rw [toList_recordMark, List.getLast?_concat]
    decide
  have cut := Template.segments_closing plain.noOpening endsInMark plain.noClosing plain.apart
  have notEmpty : Template.literal (entity.recordMark attr).toList =
      [.literal (entity.recordMark attr).toList] := by
    simp [Template.literal, toList_recordMark]
  rw [notEmpty] at cut
  refine Eq.trans (congrArg Template.segments ?_) cut
  simp only [String.toList_append, open_eq, close_eq, List.append_assoc, List.cons_append,
    List.nil_append]

/-- The template of a record renders the value of its attribute. -/
theorem interpolate_derived {attr : String} (plain : entity.SpellsPlainly attr) {attributes : Item}
    {result : Value} :
    (Declaration.derivedUniqueTemplate entity.name attr).interpolate .strict attributes =
        .ok result ↔
      ∃ value text, attributes.present? attr = some value ∧ value.keyText? = some text ∧
        result = .string (entity.recordText attr text) := by
  have source_eq : uniqueMark ++ Text.upper entity.name ++ "." ++ Text.upper attr ++ "#\x7b\x7b" ++
      attr ++ "\x7d\x7d" = entity.recordMark attr ++ "\x7b\x7b" ++ attr ++ "\x7d\x7d" := by
    have mark_eq : "#\x7b\x7b" = "#" ++ "\x7b\x7b" := rfl
    rw [recordMark, mark_eq]
    simp only [String.append_assoc]
  simp only [Declaration.derivedUniqueTemplate, source_eq, Template.interpolate,
    segments_derived plain, Template.render, plain.noBlanks, String.ofList_toList]
  cases present_eq : attributes.present? attr with
  | none => simp [Template.missing, Except.map, bind, Except.bind]
  | some value =>
    cases text_eq : value.keyText? with
    | none => simp [text_eq, Except.map, bind, Except.bind]
    | some text =>
      simp [text_eq, Except.map, bind, Except.bind, pure, Except.pure, recordText, recordMark,
        String.append_assoc, eq_comm]

theorem resolveAll_same {names : List String} {template : Template} {attributes : Item}
    {value : Value} (isValue : template.interpolate .strict attributes = .ok value) :
    KeyPart.resolveAll .strict attributes (names.map (⟨·, template⟩)) =
      .ok (names.map fun name => (name, value)) := by
  induction names with
  | nil => rfl
  | cons name names inductionHypothesis =>
    rw [List.map_cons, KeyPart.resolveAll]
    exact bind_eq_ok.2 ⟨value, isValue, bind_eq_ok.2 ⟨_, inductionHypothesis, rfl⟩⟩

/-- A derived key is that of the record of a text, and of nothing else. -/
theorem resolve_derived {attr : String} (plain : entity.SpellsPlainly attr) {key : Key}
    (parts_eq : key.parts =
      entity.table.keyAttributes.map (⟨·, Declaration.derivedUniqueTemplate entity.name attr⟩))
    {attributes record : Item} :
    key.resolve attributes = .ok record ↔
      ∃ value text, attributes.present? attr = some value ∧ value.keyText? = some text ∧
        record = entity.recordKey attr text := by
  constructor
  · intro resolved
    obtain ⟨values, values_eq, rfl⟩ := Key.resolve_eq_ok resolved
    rw [parts_eq] at values_eq
    obtain ⟨value, isValue, -⟩ := bind_eq_ok.1 values_eq
    obtain ⟨found, text, isPresent, text_eq, rfl⟩ := (interpolate_derived plain).1 isValue
    refine ⟨found, text, isPresent, text_eq, ?_⟩
    rw [resolveAll_same isValue] at values_eq
    obtain rfl := Except.ok.inj values_eq
    rfl
  · rintro ⟨value, text, isPresent, text_eq, rfl⟩
    have isValue := (interpolate_derived plain).2 ⟨value, text, isPresent, text_eq, rfl⟩
    rw [Key.resolve, parts_eq, resolveAll_same isValue]
    rfl

variable (enforces : entity.Enforces)
include enforces

theorem recordKey_inj {attr other text otherText : String} (isUnique : attr ∈ entity.uniqueNames)
    (isOther : other ∈ entity.uniqueNames)
    (same : entity.recordKey attr text = entity.recordKey other otherText) :
    attr = other ∧ text = otherText := by
  have text_eq := (recordKey_eq_iff rfl).1 same
  have noMark : ∀ {name}, name ∈ entity.uniqueNames → '#' ∉ (Text.upper name).toList :=
    fun isUnique => (Text.not_mem_upper
      (enforces.wellNamed.isWord_attribute (enforces.declared _ isUnique))
      (enforces.ascii _ isUnique)).1
  -- up to the name of the attribute the texts are the same, and then the first `#` ends the name
  have lists_eq := congrArg String.toList text_eq
  rw [toList_recordText, toList_recordText, List.append_cancel_left_eq] at lists_eq
  have parts_eq := eq_of_append_mark (noMark isUnique) (noMark isOther) lists_eq
  have upper_eq : Text.upper attr = Text.upper other := String.toList_inj.1 parts_eq.1
  have names_eq := List.inj_on_of_nodup_map enforces.apart isUnique isOther upper_eq
  exact ⟨names_eq, String.toList_inj.1 parts_eq.2⟩

/-- Names without the characters that have a meaning in templates are spelled plainly. -/
theorem Enforces.spellsPlainly {attr : String} (isUnique : attr ∈ entity.uniqueNames) :
    entity.SpellsPlainly attr := by
  have isWord := enforces.wellNamed.isWord_attribute (enforces.declared _ isUnique)
  have ascii := enforces.ascii _ isUnique
  have noClose : '\x7d' ∉ attr.toList := fun isMember =>
    (Text.isWordChar_ascii (isWord _ isMember) (ascii _ isMember)).2 rfl
  constructor
  · have dot_eq : ".".toList = ['.'] := rfl
    have mark_eq : uniqueMark.toList = "__UNIQUE".toList ++ ['#'] := rfl
    have noneMark : Template.splitPair '\x7b' "__UNIQUE".toList = none := by decide
    have noneAttr : Template.splitPair '\x7b' (Text.upper attr).toList = none :=
      Template.splitPair_of_not_mem (Text.not_mem_upper isWord ascii).2
    rw [toList_recordMark, String.toList_append, String.toList_append, String.toList_append, mark_eq,
      dot_eq]
    simp only [List.append_assoc, List.cons_append, List.nil_append]
    refine Template.splitPair_between (by decide) noneMark ?_
    refine Template.splitPair_between (by decide) enforces.literalName ?_
    exact Template.splitPair_between (by decide) noneAttr rfl
  · exact Template.splitPair_of_not_mem noClose
  · exact fun isLast => noClose (List.mem_of_getLast? isLast)
  · exact Text.trim_eq fun c isMember => (Text.isWordChar_ascii (isWord c isMember) (ascii c isMember)).1

theorem resolve_unique {unique : UniqueLayout} (isMember : unique ∈ entity.uniques)
    {attributes record : Item} :
    unique.key.resolve attributes = .ok record ↔
      ∃ value text, attributes.present? unique.attr = some value ∧ value.keyText? = some text ∧
        record = entity.recordKey unique.attr text :=
  resolve_derived (enforces.spellsPlainly (List.mem_map.2 ⟨unique, isMember, rfl⟩))
    (enforces.parts unique isMember)

theorem unique?_eq {unique : UniqueLayout} (isMember : unique ∈ entity.uniques) :
    entity.unique? unique.attr = some unique :=
  find?_of_nodup (List.Nodup.of_map _ enforces.apart) isMember

omit enforces in
theorem present?_single {attr : String} {value : Value} (notNull : value.isNull = false) :
    Item.present? (Item.single attr value) attr = some value := by
  simp [Item.present?, Item.single, NameMap.ofList, NameMap.insertAll, notNull]

omit enforces in
theorem isNull_of_keyText? {value : Value} {text : String} (text_eq : value.keyText? = some text) :
    value.isNull = false := by
  cases value <;> first | rfl | cases text_eq

theorem uniqueRecord_eq {attr : String} (isUnique : attr ∈ entity.uniqueNames) {value : Value}
    {text : String} (text_eq : value.keyText? = some text) :
    entity.uniqueRecord attr value = .ok (some (entity.recordKey attr text)) := by
  obtain ⟨unique, isMember, rfl⟩ := List.mem_map.1 isUnique
  have resolved := (resolve_unique enforces isMember).2
    ⟨value, text, present?_single (isNull_of_keyText? text_eq), text_eq, rfl⟩
  rw [uniqueRecord, unique?_eq enforces isMember]
  simp only
  rw [resolved]
  rfl

theorem uniqueRecord_string {attr : String} (isUnique : attr ∈ entity.uniqueNames) (text : String) :
    entity.uniqueRecord attr (.string text) = .ok (some (entity.recordKey attr text)) :=
  uniqueRecord_eq enforces isUnique rfl

/-- The keys of records are those of texts of unique attributes. -/
theorem isRecord_iff {key : Item} :
    entity.IsRecord key ↔ ∃ attr ∈ entity.uniqueNames, ∃ text, key = entity.recordKey attr text := by
  constructor
  · rintro ⟨attr, value, isRecord⟩
    unfold uniqueRecord at isRecord
    split at isRecord
    · cases isRecord
    · next unique found =>
      have isMember := List.mem_of_find?_eq_some found
      have attr_eq : unique.attr = attr := by simpa using List.find?_some found
      obtain ⟨record, resolved, answer⟩ := map_eq_ok.1 isRecord
      obtain rfl := Option.some.inj answer
      obtain ⟨_, text, -, -, rfl⟩ := (resolve_unique enforces isMember).1 resolved
      exact ⟨unique.attr, List.mem_map.2 ⟨unique, isMember, rfl⟩, text, rfl⟩
  · rintro ⟨attr, isUnique, text, rfl⟩
    exact ⟨attr, .string text, uniqueRecord_string enforces isUnique text⟩

end Keys

end Entity

end SingleTable
