import SingleTable.Declaration
import SingleTable.Text.Upper

/-!
# Entities on their tables

An entity is a declaration that has met its table: each template is paired with the physical
attribute that holds its value.  `Declaration.compile` makes this layout and refuses a
declaration whose keys do not fit the table or name attributes that cannot be part of a key,
so that no later write can fail on the shape of a key.
-/

namespace SingleTable

/-- The physical attribute that tells which entity an item belongs to. -/
def entityMarker : String := "__et"

/-- The start of every derived key of a uniqueness record. -/
def uniqueMark : String := "__UNIQUE#"

/-- A physical key attribute and the template that gives its value. -/
structure KeyPart where
  attr : String
  template : Template
  deriving DecidableEq, Repr

namespace KeyPart

def names (part : KeyPart) : List String := part.template.names

def references (part : KeyPart) (name : String) : Bool := part.names.contains name

end KeyPart

/-- The key of an item: a partition key part and, on a composite table, a sort key part. -/
structure Key where
  partition : KeyPart
  sort : Option KeyPart
  deriving DecidableEq, Repr

def Key.parts (key : Key) : List KeyPart := key.partition :: key.sort.toList

structure IndexLayout where
  name : String
  kind : IndexKind
  /-- The partition key part, which local indexes lack. -/
  partition : Option KeyPart
  sort : KeyPart
  /-- Whether an item without the values is left out of the index. -/
  sparse : Bool
  deriving DecidableEq, Repr

def IndexLayout.parts (index : IndexLayout) : List KeyPart :=
  index.partition.toList ++ [index.sort]

/-- The key of the records that keep an attribute unique. -/
structure UniqueLayout where
  attr : String
  key : Key
  deriving DecidableEq, Repr

/-- An entity laid out on its table. -/
structure Entity where
  name : String
  table : Table
  attributes : List Attribute
  key : Key
  indexes : List IndexLayout
  uniques : List UniqueLayout

namespace Entity

def attribute? (entity : Entity) (name : String) : Option Attribute :=
  entity.attributes.find? (·.name = name)

def index? (entity : Entity) (name : String) : Option IndexLayout :=
  entity.indexes.find? (·.name = name)

def unique? (entity : Entity) (name : String) : Option UniqueLayout :=
  entity.uniques.find? (·.attr = name)

def hasUniques (entity : Entity) : Bool := !entity.uniques.isEmpty

def parts (entity : Entity) : List KeyPart :=
  entity.key.parts ++ entity.indexes.flatMap (·.parts)

/-- The physical attributes that templates give values to. -/
def physicalAttributes (entity : Entity) : List String := entity.parts.map (·.attr)

def isKeyAttribute (entity : Entity) (name : String) : Bool :=
  entity.key.parts.any (·.references name)

end Entity

/-! ## Compiling declarations -/

namespace Declaration

/-- The declared type of an attribute; the last declaration of a name counts. -/
def typeOf? (declaration : Declaration) (name : String) : Option AttributeType :=
  (declaration.attributes.reverse.find? (·.name = name)).map (·.type)

/-- Refuse an attribute that cannot be part of a key. -/
def checkReference (declaration : Declaration) (attr : String) (template : Template)
    (name : String) : Except Error Unit :=
  match declaration.typeOf? name with
  | none => .error (.unknownAttribute declaration.name attr name)
  | some type =>
    if if template.isAlias then type.isScalar else type.isTemplateScalar then .ok ()
    else .error (.keyAttributeType declaration.name attr name type)

def part (declaration : Declaration) (attr : String) (template : Template) :
    Except Error KeyPart := do
  template.names.forM (declaration.checkReference attr template)
  return ⟨attr, template⟩

/-- The key of an item of the table.  The sort key is checked first. -/
def keyOn (declaration : Declaration) (table : Table) (role : KeyRole)
    (templates : KeyTemplates) : Except Error Key := do
  let sort ← match table.sortKey, templates.sort with
    | some attr, some template => some <$> declaration.part attr template
    | none, none => pure none
    | some _, none => throw (.keyShape declaration.name (.sortKeyMissing role table.name))
    | none, some _ => throw (.keyShape declaration.name (.sortKeyUnexpected role table.name))
  return ⟨← declaration.part table.partitionKey templates.partition, sort⟩

/-- The layout of an index, which the table must define with the same kind. -/
def indexOn (declaration : Declaration) (table : Table) (name : String)
    (templates : IndexTemplates) : Except Error IndexLayout := do
  let some definition := table.index? name
    | throw (.unknownIndex name table.name)
  if definition.kind ≠ templates.kind then
    throw (.indexKindMismatch declaration.name name templates.kind definition.kind)
  let partition ← match definition.partitionKey, templates.partition with
    | some attr, some template => some <$> declaration.part attr template
    | none, none => pure none
    | some _, none => throw (.keyShape declaration.name (.partitionKeyMissing name))
    | none, some _ => throw (.keyShape declaration.name (.partitionKeyUnexpected name))
  let sort ← declaration.part definition.sortKey templates.sort
  return ⟨name, definition.kind, partition, sort,
    templates.sparse.getD definition.sparse⟩

def derivedUniqueTemplate (entity attr : String) : Template :=
  .text (uniqueMark ++ Text.upper entity ++ "." ++ Text.upper attr
    ++ "#\x7b\x7b" ++ attr ++ "\x7d\x7d")

def uniqueTemplates (declaration : Declaration) (table : Table) (attr : String) :
    UniqueRule → KeyTemplates
  | .explicit key => key
  | .derived =>
    let template := derivedUniqueTemplate declaration.name attr
    ⟨template, if table.isComposite then some template else none⟩

def uniquesOn (declaration : Declaration) (table : Table) :
    List Attribute → Except Error (List UniqueLayout)
  | [] => .ok []
  | attr :: rest =>
    match attr.unique with
    | none => declaration.uniquesOn table rest
    | some rule => do
      let key ← declaration.keyOn table (.unique attr.name)
        (declaration.uniqueTemplates table attr.name rule)
      return ⟨attr.name, key⟩ :: (← declaration.uniquesOn table rest)

/-- The layout of a declaration on its own table, or on the default table. -/
def compile (declaration : Declaration) (defaultTable : Option Table) :
    Except Error Entity := do
  let some table := declaration.table <|> defaultTable
    | throw (.missingTable declaration.name)
  let key ← declaration.keyOn table .primary declaration.key
  let indexes ← declaration.indexes.mapM fun (name, templates) =>
    declaration.indexOn table name templates
  let uniques ← declaration.uniquesOn table declaration.attributes
  return {
    name := declaration.name
    table
    attributes := declaration.attributes
    key
    indexes
    uniques }

end Declaration

end SingleTable
