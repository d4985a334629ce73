import SingleTable.Proofs.Entity.Layout
import Mathlib.Data.Option.NAry

/-!
# Which declarations compile

Compiling checks a declaration piece by piece and lays it out as it goes.  Each check lets pass exactly
what is well formed and refuses everything else with a schema error (`Decides`), and a sequence of such
checks is one again.  So the checks of references, parts, keys, indexes and unique attributes add up to
what a well-formed declaration is, and to where its templates are put (`Declaration.compile_iff`).
-/

namespace SingleTable

/-! ## Checks -/

section Checks

variable {α β : Type} {outcome : Except Error α} {wellFormed : Prop} {IsResult : α → Prop}

/-- A check passes exactly if something is well formed, with a result as it should be, and fails with
a schema error otherwise. -/
def Decides (outcome : Except Error α) (wellFormed : Prop) (IsResult : α → Prop) : Prop :=
  match outcome with
  | .ok result => wellFormed ∧ IsResult result
  | .error error => ¬ wellFormed ∧ error.isSchema = true

namespace Decides

theorem congr {other : Prop} (decides : Decides outcome wellFormed IsResult)
    (same : wellFormed ↔ other) : Decides outcome other IsResult :=
  propext same ▸ decides

theorem pure {result : α} (isResult : IsResult result) : Decides (.ok result) True IsResult :=
  ⟨trivial, isResult⟩

theorem map {IsImage : β → Prop} (f : α → β) (decides : Decides outcome wellFormed IsResult)
    (image : ∀ result, IsResult result → IsImage (f result)) :
    Decides (f <$> outcome) wellFormed IsImage := by
  cases outcome with
  | error error => exact decides
  | ok result => exact ⟨decides.1, image result decides.2⟩

/-- One check after the other decides whether both are passed. -/
theorem bind {next : α → Except Error β} {wellFormed' : Prop} {IsResult' : β → Prop}
    (first : Decides outcome wellFormed IsResult)
    (second : ∀ result, IsResult result → Decides (next result) wellFormed' IsResult') :
    Decides (outcome >>= next) (wellFormed ∧ wellFormed') IsResult' := by
  cases outcome with
  | error error => exact ⟨fun both => first.1 both.1, first.2⟩
  | ok result =>
    have rest := second result first.2
    change Decides (next result) _ _
    cases answer : next result with
    | error error =>
      rw [answer] at rest
      exact ⟨fun both => rest.1 both.2, rest.2⟩
    | ok result =>
      rw [answer] at rest
      exact ⟨⟨first.1, rest.1⟩, rest.2⟩

theorem forM {check : α → Except Error Unit} {WellFormed : α → Prop}
    (decides : ∀ element, Decides (check element) (WellFormed element) fun _ => True)
    (elements : List α) :
    Decides (elements.forM check) (∀ element ∈ elements, WellFormed element) fun _ => True := by
  induction elements with
  | nil => exact ⟨by simp, trivial⟩
  | cons element elements inductionHypothesis =>
    refine Decides.congr ((decides element).bind fun _ _ => inductionHypothesis) ?_
    simp

theorem mapM {check : α → Except Error β} {WellFormed : α → Prop} {IsImage : α → β → Prop}
    (decides : ∀ element, Decides (check element) (WellFormed element) (IsImage element))
    (elements : List α) :
    Decides (elements.mapM check) (∀ element ∈ elements, WellFormed element)
      (List.Forall₂ IsImage elements) := by
  induction elements with
  | nil => exact ⟨by simp, .nil⟩
  | cons element elements inductionHypothesis =>
    rw [List.mapM_cons]
    refine Decides.congr ((decides element).bind fun image isImage =>
      inductionHypothesis.bind fun images areImages => .pure (.cons isImage areImages)) ?_
    simp

end Decides

end Checks

/-! ## What a template refers to -/

namespace Template

/-- The names that a template refers to, as often as it does. -/
def mentions : Template → List String
  | text source => (segments source.toList).filterMap (·.name?)
  | copyOf attr => [attr]

/-- Whether a template may refer to attributes of a type: a text can render strings, numbers, booleans
and enumerations, and an alias can copy binary values too. -/
def MayReferTo (template : Template) (type : AttributeType) : Prop :=
  type ∈ [.string, .number, .boolean, .enumeration] ∨ type = .binary ∧ template.isAlias = true

theorem allows_iff {template : Template} {type : AttributeType} :
    template.allows type = true ↔ template.MayReferTo type := by
  cases template <;> cases type <;> simp [allows, isAlias, MayReferTo, AttributeType.isScalar,
    AttributeType.isTemplateScalar]

end Template

/-- Names that stand for others without repetition, in the order in which each is first mentioned:
wherever the mentions are cut, the names before the cut come first. -/
structure FirstMentions (names mentions : List String) : Prop where
  nodup : names.Nodup
  mem_iff : ∀ name, name ∈ names ↔ name ∈ mentions
  order : ∀ earlier later, mentions = earlier ++ later →
    ∃ seen unseen, names = seen ++ unseen ∧ ∀ name, name ∈ seen ↔ name ∈ earlier

theorem nodup_eraseDups (mentions : List String) : mentions.eraseDups.Nodup := by
  cases mentions with
  | nil => simp
  | cons name mentions =>
    rw [List.eraseDups_cons, List.nodup_cons]
    exact ⟨by simp, nodup_eraseDups _⟩
termination_by mentions.length
decreasing_by exact Nat.lt_succ_of_le (List.length_filter_le _ _)

theorem firstMentions_eraseDups (mentions : List String) :
    FirstMentions mentions.eraseDups mentions where
  nodup := nodup_eraseDups mentions
  mem_iff _ := List.mem_eraseDups
  order := by
    rintro earlier later rfl
    exact ⟨_, _, List.eraseDups_append, fun _ => List.mem_eraseDups⟩

theorem Template.firstMentions (template : Template) :
    FirstMentions template.names template.mentions := by
  cases template with
  | text source => exact firstMentions_eraseDups _
  | copyOf attr => exact firstMentions_eraseDups [attr]

/-! ## Well-formed declarations -/

def KeyTemplates.all (templates : KeyTemplates) : List Template :=
  templates.partition :: templates.sort.toList

def IndexTemplates.all (templates : IndexTemplates) : List Template :=
  templates.partition.toList ++ [templates.sort]

def KeyTemplates.Match (templates : KeyTemplates) (table : Table) : Prop :=
  templates.sort.isSome ↔ table.sortKey.isSome

/-- The table has the index, of the same kind, and with a partition key of its own exactly if there is
a template for it. -/
def IndexTemplates.Match (templates : IndexTemplates) (name : String) (table : Table) : Prop :=
  ∃ definition, table.index? name = some definition ∧ definition.kind = templates.kind ∧
    (templates.partition.isSome ↔ definition.partitionKey.isSome)

namespace Declaration

/-- A name is declared with a type.  If it is declared several times, the last one counts. -/
def Declares (declaration : Declaration) (name : String) (type : AttributeType) : Prop :=
  ∃ earlier attr later, declaration.attributes = earlier ++ attr :: later ∧ attr.name = name ∧
    attr.type = type ∧ ∀ other ∈ later, other.name ≠ name

/-- All names of a template are declared with types that it may refer to. -/
def Covers (declaration : Declaration) (template : Template) : Prop :=
  ∀ name ∈ template.mentions, ∃ type, declaration.Declares name type ∧ template.MayReferTo type

def allUniqueTemplates (declaration : Declaration) (table : Table) : List KeyTemplates :=
  declaration.attributes.flatMap fun attr =>
    attr.unique.toList.map (declaration.uniqueTemplates table attr.name)

def templatesOn (declaration : Declaration) (table : Table) : List Template :=
  declaration.key.all ++ declaration.indexes.flatMap (·.2.all) ++
    (declaration.allUniqueTemplates table).flatMap (·.all)

/-- The keys and indexes of a declaration match its table, and all names in its templates are
declared. -/
structure WellFormed (declaration : Declaration) (table : Table) : Prop where
  key : declaration.key.Match table
  uniques : ∀ attr ∈ declaration.attributes, ∀ templates,
    attr.unique = some (.explicit templates) → templates.Match table
  indexes : ∀ name templates, (name, templates) ∈ declaration.indexes → templates.Match name table
  names : ∀ template ∈ declaration.templatesOn table, declaration.Covers template

end Declaration

/-! ## Laid out on a table -/

def KeyTemplates.on (templates : KeyTemplates) (table : Table) : Key :=
  ⟨⟨table.partitionKey, templates.partition⟩, Option.map₂ KeyPart.mk table.sortKey templates.sort⟩

def IndexTemplates.on (templates : IndexTemplates) (name : String) (definition : IndexDefinition) :
    IndexLayout where
  name := name
  kind := templates.kind
  partition := Option.map₂ KeyPart.mk definition.partitionKey templates.partition
  sort := ⟨definition.sortKey, templates.sort⟩
  sparse := templates.sparse.getD definition.sparse

namespace Declaration

/-- An entity lies on the table with all templates of a declaration, its indexes and unique attributes
in the order in which they are declared. -/
structure LaidOutOn (declaration : Declaration) (table : Table) (entity : Entity) : Prop where
  name : entity.name = declaration.name
  onTable : entity.table = table
  attributes : entity.attributes = declaration.attributes
  key : entity.key = declaration.key.on table
  indexes : List.Forall₂ (fun declared index => ∃ definition,
      table.index? declared.1 = some definition ∧ index = declared.2.on declared.1 definition)
    declaration.indexes entity.indexes
  uniques : entity.uniques = declaration.attributes.flatMap fun attr =>
    attr.unique.toList.map fun rule =>
      ⟨attr.name, (declaration.uniqueTemplates table attr.name rule).on table⟩

variable {declaration : Declaration} {table : Table}

/-! ## References and parts -/

theorem typeOf?_eq_some_iff {name : String} {type : AttributeType} :
    declaration.typeOf? name = some type ↔ declaration.Declares name type := by
  rw [typeOf?, Option.map_eq_some_iff]
  constructor
  · rintro ⟨attr, found, rfl⟩
    obtain ⟨sameName, later, earlier, split, differ⟩ := List.find?_eq_some_iff_append.1 found
    refine ⟨earlier.reverse, attr, later.reverse, ?_, by simpa using sameName, rfl, by simpa using differ⟩
    rw [← List.reverse_inj, split]
    simp
  · rintro ⟨earlier, attr, later, split, rfl, rfl, differ⟩
    refine ⟨attr, List.find?_eq_some_iff_append.2
      ⟨by simp, later.reverse, earlier.reverse, ?_, by simpa using differ⟩, rfl⟩
    rw [split]
    simp

theorem decides_checkReference (attr : String) (template : Template) (name : String) :
    Decides (declaration.checkReference attr template name)
      (∃ type, declaration.Declares name type ∧ template.MayReferTo type) fun _ => True := by
  simp only [← typeOf?_eq_some_iff, ← Template.allows_iff]
  unfold checkReference
  cases declared : declaration.typeOf? name with
  | none => exact ⟨by simp, rfl⟩
  | some type =>
    change Decides (if template.allows type = true then _ else _) _ _
    split
    · next allowed => exact ⟨⟨type, rfl, allowed⟩, trivial⟩
    · next refused => exact ⟨by simpa using refused, rfl⟩

theorem decides_part (attr : String) (template : Template) :
    Decides (declaration.part attr template) (declaration.Covers template) (· = ⟨attr, template⟩) := by
  refine Decides.congr ((Decides.forM (declaration.decides_checkReference attr template)
    template.names).bind fun _ _ => .pure rfl) ?_
  simp only [template.firstMentions.mem_iff, and_true, Covers]

def optionalPart (declaration : Declaration) (missing unexpected : Error) :
    Option String → Option Template → Except Error (Option KeyPart)
  | some attr, some template => some <$> declaration.part attr template
  | none, none => .ok none
  | some _, none => .error missing
  | none, some _ => .error unexpected

theorem decides_optionalPart {missing unexpected : Error} (isMissing : missing.isSchema = true)
    (isUnexpected : unexpected.isSchema = true) (attr : Option String) (template : Option Template) :
    Decides (declaration.optionalPart missing unexpected attr template)
      ((template.isSome ↔ attr.isSome) ∧ ∀ given ∈ template, declaration.Covers given)
      (· = Option.map₂ KeyPart.mk attr template) := by
  cases attr with
  | none =>
    cases template with
    | none => exact ⟨by simp, rfl⟩
    | some template => exact ⟨by simp, isUnexpected⟩
  | some attr =>
    cases template with
    | none => exact ⟨by simp, isMissing⟩
    | some template =>
      refine Decides.congr ((declaration.decides_part attr template).map some ?_) (by simp)
      rintro _ rfl
      rfl

/-! ## Keys and indexes -/

theorem keyOn_eq (role : KeyRole) (templates : KeyTemplates) :
    declaration.keyOn table role templates = (do
      let sort ← declaration.optionalPart
        (.keyShape declaration.name (.sortKeyMissing role table.name))
        (.keyShape declaration.name (.sortKeyUnexpected role table.name)) table.sortKey templates.sort
      let partition ← declaration.part table.partitionKey templates.partition
      return ⟨partition, sort⟩) := by
  unfold keyOn
  cases table.sortKey <;> cases templates.sort <;> rfl

/-- The templates of a key match the table, and all names in them are declared. -/
def Admits (declaration : Declaration) (table : Table) (templates : KeyTemplates) : Prop :=
  templates.Match table ∧ ∀ template ∈ templates.all, declaration.Covers template

theorem decides_keyOn (role : KeyRole) (templates : KeyTemplates) :
    Decides (declaration.keyOn table role templates) (declaration.Admits table templates)
      (· = templates.on table) := by
  rw [keyOn_eq]
  refine Decides.congr ((decides_optionalPart rfl rfl _ _).bind fun sort isSort =>
    (declaration.decides_part _ _).bind fun partition isPartition => .pure ?_) ?_
  · rw [isPartition, isSort, KeyTemplates.on]
  · simp only [Admits, KeyTemplates.Match, KeyTemplates.all, List.forall_mem_cons, Option.mem_toList,
      and_true]
    tauto

theorem indexOn_eq {name : String} {templates : IndexTemplates} {definition : IndexDefinition}
    (defined : table.index? name = some definition) (sameKind : definition.kind = templates.kind) :
    declaration.indexOn table name templates = (do
      let partition ← declaration.optionalPart
        (.keyShape declaration.name (.partitionKeyMissing name))
        (.keyShape declaration.name (.partitionKeyUnexpected name))
        definition.partitionKey templates.partition
      let sort ← declaration.part definition.sortKey templates.sort
      return ⟨name, definition.kind, partition, sort, templates.sparse.getD definition.sparse⟩) := by
  unfold indexOn
  rw [defined]
  dsimp only
  rw [if_neg (by simpa using sameKind)]
  cases definition.partitionKey <;> cases templates.partition <;> rfl

def AdmitsIndex (declaration : Declaration) (table : Table) (name : String)
    (templates : IndexTemplates) : Prop :=
  templates.Match name table ∧ ∀ template ∈ templates.all, declaration.Covers template

theorem decides_indexOn (name : String) (templates : IndexTemplates) :
    Decides (declaration.indexOn table name templates) (declaration.AdmitsIndex table name templates)
      fun index => ∃ definition, table.index? name = some definition ∧
        index = templates.on name definition := by
  cases defined : table.index? name with
  | none =>
    unfold indexOn
    rw [defined]
    refine ⟨?_, rfl⟩
    rintro ⟨⟨definition, isDefined, -⟩, -⟩
    rw [defined] at isDefined
    cases isDefined
  | some definition =>
    by_cases sameKind : definition.kind = templates.kind
    · rw [indexOn_eq defined sameKind]
      refine Decides.congr ((decides_optionalPart rfl rfl _ _).bind fun partition isPartition =>
        (declaration.decides_part _ _).bind fun sort isSort => .pure ?_) ?_
      · -- the parts that were resolved are those of the definition
        exact ⟨definition, rfl, by rw [isPartition, isSort, sameKind, IndexTemplates.on]⟩
      · simp [AdmitsIndex, IndexTemplates.Match, IndexTemplates.all, defined, sameKind, or_imp,
          forall_and]
        tauto
    · unfold indexOn
      rw [defined]
      dsimp only
      rw [if_pos sameKind]
      refine ⟨?_, rfl⟩
      rintro ⟨⟨definition', isDefined, sameKind', -⟩, -⟩
      rw [defined] at isDefined
      cases isDefined
      exact sameKind sameKind'

/-! ## Unique attributes -/

theorem decides_uniquesOn (attributes : List Attribute) :
    Decides (declaration.uniquesOn table attributes)
      (∀ attr ∈ attributes, ∀ rule ∈ attr.unique,
        declaration.Admits table (declaration.uniqueTemplates table attr.name rule))
      (· = attributes.flatMap fun attr => attr.unique.toList.map fun rule =>
        ⟨attr.name, (declaration.uniqueTemplates table attr.name rule).on table⟩) := by
  induction attributes with
  | nil => exact ⟨by simp, rfl⟩
  | cons attr attributes inductionHypothesis =>
    unfold uniquesOn
    cases isUnique : attr.unique with
    | none =>
      simp only [List.forall_mem_cons, List.flatMap_cons, isUnique]
      simpa using inductionHypothesis
    | some rule =>
      refine Decides.congr ((declaration.decides_keyOn _ _).bind fun key isKey =>
        inductionHypothesis.bind fun others areOthers => .pure ?_) ?_
      · rw [isKey, areOthers, List.flatMap_cons, isUnique]
        rfl
      · simp [isUnique]

/-! ## Declarations -/

/-- The keys of derived records match every table. -/
theorem uniqueTemplates_derived_match (attr : String) :
    (declaration.uniqueTemplates table attr .derived).Match table := by
  rw [KeyTemplates.Match, uniqueTemplates]
  by_cases isComposite : table.sortKey.isSome <;> simp [Table.isComposite, isComposite]

theorem mem_templatesOn {template : Template} :
    template ∈ declaration.templatesOn table ↔ template ∈ declaration.key.all ∨
      (∃ declared ∈ declaration.indexes, template ∈ declared.2.all) ∨
      ∃ attr ∈ declaration.attributes, ∃ rule ∈ attr.unique,
        template ∈ (declaration.uniqueTemplates table attr.name rule).all := by
  simp [templatesOn, allUniqueTemplates, and_assoc]

/-- What is checked key by key and index by index. -/
theorem wellFormed_iff :
    declaration.WellFormed table ↔ declaration.Admits table declaration.key ∧
      (∀ declared ∈ declaration.indexes, declaration.AdmitsIndex table declared.1 declared.2) ∧
      ∀ attr ∈ declaration.attributes, ∀ rule ∈ attr.unique,
        declaration.Admits table (declaration.uniqueTemplates table attr.name rule) := by
  constructor
  · rintro ⟨key, uniques, indexes, names⟩
    refine ⟨⟨key, ?_⟩, fun declared isDeclared => ⟨indexes _ _ isDeclared, ?_⟩,
      fun attr isDeclared rule isRule => ⟨?_, ?_⟩⟩
    · exact fun template isTemplate => names template (mem_templatesOn.2 (.inl isTemplate))
    · exact fun template isTemplate =>
        names template (mem_templatesOn.2 (.inr (.inl ⟨declared, isDeclared, isTemplate⟩)))
    · cases rule with
      | derived => exact uniqueTemplates_derived_match attr.name
      | explicit templates => exact uniques attr isDeclared templates isRule
    · exact fun template isTemplate =>
        names template (mem_templatesOn.2 (.inr (.inr ⟨attr, isDeclared, rule, isRule, isTemplate⟩)))
  · rintro ⟨key, indexes, uniques⟩
    refine ⟨key.1, ?_, fun name templates isDeclared => (indexes _ isDeclared).1, ?_⟩
    · intro attr isDeclared templates isRule
      exact (uniques attr isDeclared _ isRule).1
    · intro template isTemplate
      rcases mem_templatesOn.1 isTemplate with
        isTemplate | ⟨declared, isDeclared, isTemplate⟩ | ⟨attr, isDeclared, rule, isRule, isTemplate⟩
      · exact key.2 template isTemplate
      · exact (indexes declared isDeclared).2 template isTemplate
      · exact (uniques attr isDeclared rule isRule).2 template isTemplate

theorem decides_compile (defaultTable : Option Table) :
    Decides (declaration.compile defaultTable)
      (∃ table, (declaration.table <|> defaultTable) = some table ∧ declaration.WellFormed table)
      fun entity => ∃ table, (declaration.table <|> defaultTable) = some table ∧
        declaration.LaidOutOn table entity := by
  unfold compile
  cases found : (declaration.table <|> defaultTable) with
  | none => exact ⟨by simp, rfl⟩
  | some table =>
    refine Decides.congr ((declaration.decides_keyOn _ _).bind fun key isKey =>
      (Decides.mapM (fun (declared : String × IndexTemplates) =>
        declaration.decides_indexOn declared.1 declared.2) _).bind fun indexes areIndexes =>
          (declaration.decides_uniquesOn _).bind fun uniques areUniques => .pure ?_) ?_
    · exact ⟨table, rfl, ⟨rfl, rfl, rfl, isKey, areIndexes, areUniques⟩⟩
    · simp [wellFormed_iff]

/-- A declaration compiles exactly if there is a table for it on which it is well formed.  The entity
has all its templates at the attributes of the table, and each part refers to the names of its
template, in the order in which they are first mentioned.  Every refusal is a schema error. -/
theorem compile_exactly (declaration : Declaration) (defaultTable : Option Table) :
    ((∃ entity, declaration.compile defaultTable = .ok entity) ↔
      ∃ table, (declaration.table <|> defaultTable) = some table ∧ declaration.WellFormed table) ∧
    (∀ entity, declaration.compile defaultTable = .ok entity →
      (∃ table, (declaration.table <|> defaultTable) = some table ∧ declaration.LaidOutOn table entity) ∧
      ∀ part ∈ entity.parts ++ entity.uniques.flatMap (·.key.parts),
        FirstMentions part.names part.template.mentions) ∧
    ∀ error, declaration.compile defaultTable = .error error → error.isSchema = true := by
  have decides := declaration.decides_compile defaultTable
  cases answer : declaration.compile defaultTable with
  | error error =>
    rw [answer] at decides
    obtain ⟨illFormed, isSchema⟩ := decides
    refine ⟨iff_of_false (by simp) illFormed, by simp, ?_⟩
    rintro _ ⟨⟩
    exact isSchema
  | ok entity =>
    rw [answer] at decides
    obtain ⟨wellFormed, laidOut⟩ := decides
    refine ⟨iff_of_true ⟨entity, rfl⟩ wellFormed, ?_, by simp⟩
    rintro _ ⟨⟩
    exact ⟨laidOut, fun part _ => part.template.firstMentions⟩

end Declaration

end SingleTable
