import SingleTable.Entity
import SingleTable.Form.Value

/-!
# The form of tables, declarations and layouts

Declarations are read from their form; the layout that a declaration has on its table is
written in one.
-/

namespace SingleTable.Form

def template : Document → Reading Template
  | .string source => .ok (.text source)
  | d =>
    match member? d "alias" with
    | some name => .copyOf <$> text name
    | none => do return .text (← text (← member d "template"))

def indexKind : Document → Reading IndexKind
  | .string "global" => .ok .globalIndex
  | .string "local" => .ok .localIndex
  | _ => .error "an index kind is expected"

def indexDefinition (d : Document) : Reading IndexDefinition := do
  return {
    kind := ← indexKind (← member d "type")
    partitionKey := ← field? d "pk" text
    sortKey := ← text (← member d "sk")
    sparse := ← fieldD d "sparse" flag true }

def table (d : Document) : Reading Table := do
  return {
    name := ← text (← member d "name")
    partitionKey := ← text (← member d "pk")
    sortKey := ← field? d "sk" text
    indexes := NameMap.ofList
      (← fieldD d "indexes" (list (pair text indexDefinition)) []) }

def keyTemplates (d : Document) : Reading KeyTemplates := do
  return ⟨← template (← member d "pk"), ← field? d "sk" template⟩

def indexTemplates (d : Document) : Reading IndexTemplates := do
  return {
    kind := ← indexKind (← member d "type")
    partition := ← field? d "pk" template
    sort := ← template (← member d "sk")
    sparse := ← field? d "sparse" flag }

def allTypes : List AttributeType :=
  [.string, .number, .boolean, .binary, .enumeration, .list, .map, .stringSet, .numberSet,
    .binarySet]

def attributeType (d : Document) : Reading AttributeType := do
  let name ← text d
  match allTypes.find? (·.text = name) with
  | some type => return type
  | none => throw "an attribute type is expected"

def strategy : Document → Reading Strategy
  | .string "uuid4" => .ok .uuid
  | .string "ksuid" => .ok .sortableId
  | .string "epoch_seconds" => .ok .epochSeconds
  | .string "iso8601" => .ok .timestamp
  | _ => .error "a strategy is expected"

def uniqueRule : Document → Reading (Option UniqueRule)
  | .boolean true => .ok (some .derived)
  | .boolean false => .ok none
  | d => do return some (.explicit (← keyTemplates d))

/-- The default of an attribute: a value, the value of another attribute, or a value for
when another attribute is there. -/
def defaultRule (d : Document) : Reading (Option DefaultRule) := do
  if let some v := member? d "default_if" then
    let (name, value) ← pair text value v
    return some (.computed fun attributes =>
      if attributes.contains name then some value else none)
  else if let some v := member? d "default_copy" then
    let name ← text v
    return some (.computed fun attributes => attributes.get? name)
  else if let some v := member? d "default" then
    return some (.constant (← value v))
  else
    return none

def generatedRule (d : Document) : Reading GeneratedRule := do
  let (strategy, onUpdate) ← pair strategy flag d
  return ⟨strategy, onUpdate⟩

def attributeDeclaration (d : Document) : Reading Attribute := do
  return {
    name := ← text (← member d "name")
    type := ← attributeType (← member d "type")
    unique := ← fieldD d "unique" uniqueRule none
    default := ← defaultRule d
    hidden := ← fieldD d "hidden" flag false
    generated := ← field? d "auto" generatedRule }

/-- A declaration: indexes, then attributes one by one, then what is inherited. -/
def declaration (d : Document) : Reading Declaration := do
  let base : Declaration := {
    name := ← text (← member d "name")
    table := ← field? d "table" table
    key := ← keyTemplates (← member d "key") }
  let indexes ← fieldD d "indexes" (list (pair text indexTemplates)) []
  let attributes ← fieldD d "attributes" (list attributeDeclaration) []
  let inherited ← fieldD d "extends" (list (list attributeDeclaration)) []
  let base := indexes.foldl (fun d i => d.withIndex i.1 i.2) base
  let base := attributes.foldl (·.withAttribute ·) base
  return inherited.foldl (·.inherit ·) base

/-! ## Layouts -/

def ofTemplate : Template → Document
  | .text source => .string source
  | .copyOf name => object [("alias", .string name)]

def ofPart (part : KeyPart) : Document :=
  object [("attribute", .string part.attr), ("template", ofTemplate part.template),
    ("names", array .string part.names)]

def ofIndexLayout (index : IndexLayout) : Document :=
  object [("name", .string index.name), ("type", .string index.kind.text),
    ("sparse", .boolean index.sparse), ("has_partition", .boolean index.partition.isSome),
    ("parts", array ofPart index.parts)]

def ofUniqueLayout (unique : UniqueLayout) : Document :=
  object [("attribute", .string unique.attr), ("key", array ofPart unique.key.parts)]

def ofAttribute (strategyName : Strategy → String) (attr : Attribute) : Document :=
  object [("name", .string attr.name), ("type", .string attr.type.text),
    ("hidden", .boolean attr.hidden), ("unique", .boolean attr.unique.isSome),
    ("has_default", .boolean attr.default.isSome),
    ("auto", option (fun rule : GeneratedRule =>
      .array [.string (strategyName rule.strategy), .boolean rule.onUpdate]) attr.generated)]

def ofEntity (strategyName : Strategy → String) (entity : Entity) : Document :=
  object [("name", .string entity.name), ("table", .string entity.table.name),
    ("attributes", array (ofAttribute strategyName) entity.attributes),
    ("primary_key", array ofPart entity.key.parts),
    ("indexes", array ofIndexLayout entity.indexes),
    ("uniques", array ofUniqueLayout entity.uniques),
    ("has_unique", .boolean entity.hasUniques),
    ("physical", array .string entity.physicalAttributes)]

end SingleTable.Form
