import SingleTable.Form.Value
import SingleTable.Request
import SingleTable.Update

/-!
# The form of conditions, actions and options

A condition, a test or an action is an object with one member, named for what it is; those
without an operand are a bare text.
-/

namespace SingleTable.Form

def comparisonName : Comparison → String
  | .equal => "eq"
  | .notEqual => "ne"
  | .less => "lt"
  | .lessOrEqual => "le"
  | .greater => "gt"
  | .greaterOrEqual => "ge"

def comparison (name : String) : Reading Comparison :=
  match [Comparison.equal, .notEqual, .less, .lessOrEqual, .greater, .greaterOrEqual].find?
      (comparisonName · = name) with
  | some c => .ok c
  | none => .error ("unknown comparison " ++ name)

def attributeTest : Document → Reading AttributeTest
  | .string "exists" => .ok .present
  | .string "not_exists" => .ok .absent
  | .object [("begins_with", d)] => .beginsWith <$> value d
  | .object [("contains", d)] => .contains <$> value d
  | .object [("between", d)] => .between <$> list value d
  | .object [("in", d)] => .inList <$> list value d
  | .object [("type", d)] => .hasType <$> text d
  | .object [("size", d)] => .size <$> attributeTest d
  | .object [(name, d)] => do return .compare (← comparison name) (← value d)
  | _ => .error "a test is expected"

mutual

def condition : Document → Reading Condition
  | .object [("attr", d)] => do
    let (path, test) ← pair text attributeTest d
    return .test path test
  | .object [("eq", d)] => do
    let (path, v) ← pair text value d
    return .equals path v
  | .object [("exists", d)] => .present <$> text d
  | .object [("not_exists", d)] => .absent <$> text d
  | .object [("and", .array ds)] => .all <$> conditions ds
  | .object [("or", .array ds)] => .any <$> conditions ds
  | .object [("not", d)] => .not <$> condition d
  | .object [("and_with", .array [a, b])] => do
    let first ← condition a
    return first.and (← condition b)
  | .object [("or_with", .array [a, b])] => do
    let first ← condition a
    return first.or (← condition b)
  | .object [("negate", d)] => .not <$> condition d
  | _ => .error "a condition is expected"

def conditions : List Document → Reading (List Condition)
  | [] => .ok []
  | d :: ds => do
    let first ← condition d
    let rest ← conditions ds
    return first :: rest

end

def sortKeyTest : Document → Reading SortKeyTest
  | .object [("eq", d)] => .equal <$> value d
  | .object [("lt", d)] => .less <$> value d
  | .object [("le", d)] => .lessOrEqual <$> value d
  | .object [("gt", d)] => .greater <$> value d
  | .object [("ge", d)] => .greaterOrEqual <$> value d
  | .object [("begins_with", .string s)] => .ok (.beginsWith (.string s))
  | .object [("begins_with", d)] => .beginsWith <$> value d
  | .object [("between", d)] => do
    let (low, high) ← pair value value d
    return .between low high
  | _ => .error "a sort key test is expected"

def updateAction : Document → Reading UpdateAction
  | .string "remove" => .ok .remove
  | .object [("set", d)] => .set <$> value d
  | .object [("increment", d)] => .increment <$> value d
  | .object [("decrement", d)] => .decrement <$> value d
  | .object [("if_not_exists", d)] => .setIfAbsent <$> value d
  | .object [("list_append", d)] => .listAppend <$> value d
  | .object [("add", d)] => .add <$> value d
  | .object [("delete", d)] => .delete <$> value d
  | .object [("remove_at", d)] => .removeAt <$> list natural d
  | _ => .error "an action is expected"

/-- A body: actions by path, or a document whose members are all set.  The document may be
one that has no item. -/
def updateBody : Document → Reading (Except Error UpdateBody)
  | .array ds => do return .ok (.ofList (← ds.mapM (pair text updateAction)))
  | d => do
    let attributes := ConversionError.lift (Item.ofDocument ((d.member? "from").getD .null))
    return attributes.map UpdateBody.ofItem

/-! ## Options -/

def partition (d : Document) : Reading Partition := do
  match member? d "raw" with
  | some key => return .raw (← text key)
  | none => return .attributes (← item (← member d "attributes"))

def effortLimit (d : Document) : Reading EffortLimit := do
  match member? d "consumed_capacity" with
  | some x => return .capacity (← real x)
  | none => return .scanned (.ofNat (← natural (← member d "scanned_count")))

def createOptions (d : Document) : Reading CreateOptions := do
  return {
    overwrite := ← fieldD d "overwrite" flag false
    condition := ← field? d "where" condition }

def getOptions (d : Document) : Reading GetOptions := do
  return {
    select := ← field? d "select" (list text)
    consistent := ← fieldD d "consistent_read" flag false }

def updateOptions (d : Document) : Reading UpdateOptions := do
  return {
    condition := ← field? d "where" condition
    context := ← fieldD d "context" item ∅ }

def deleteOptions (d : Document) : Reading DeleteOptions := do
  return { condition := ← field? d "where" condition }

def queryOptions (d : Document) : Reading QueryOptions := do
  return {
    index := ← field? d "index" text
    sort := ← field? d "key_condition" sortKeyTest
    condition := ← field? d "where" condition
    select := ← field? d "select" (list text)
    descending := ← fieldD d "descending" flag false
    limit := ← field? d "limit" natural
    cursor := ← field? d "cursor" item
    effort := ← field? d "meta_limit" effortLimit
    consistent := ← fieldD d "consistent_read" flag false }

def scanOptions (d : Document) : Reading ScanOptions := do
  return {
    index := ← field? d "index" text
    condition := ← field? d "where" condition
    select := ← field? d "select" (list text)
    limit := ← field? d "limit" natural
    cursor := ← field? d "cursor" item
    effort := ← field? d "meta_limit" effortLimit
    segment := ← field? d "segment" integer
    totalSegments := ← field? d "total_segments" integer }

/-! ## Writing -/

def ofTest : AttributeTest → Document
  | .compare c v => object [(comparisonName c, ofValue v)]
  | .beginsWith v => object [("begins_with", ofValue v)]
  | .contains v => object [("contains", ofValue v)]
  | .between vs => object [("between", array ofValue vs)]
  | .inList vs => object [("in", array ofValue vs)]
  | .present => .string "exists"
  | .absent => .string "not_exists"
  | .hasType code => object [("type", .string code)]
  | .size test => object [("size", ofTest test)]

mutual

def ofCondition : Condition → Document
  | .test path test => object [("attr", .array [.string path, ofTest test])]
  | .all cs => object [("and", .array (ofConditions cs))]
  | .any cs => object [("or", .array (ofConditions cs))]
  | .not c => object [("not", ofCondition c)]

def ofConditions : List Condition → List Document
  | [] => []
  | c :: cs => ofCondition c :: ofConditions cs

end

def ofAction : UpdateAction → Document
  | .set v => object [("set", ofValue v)]
  | .increment v => object [("increment", ofValue v)]
  | .decrement v => object [("decrement", ofValue v)]
  | .setIfAbsent v => object [("if_not_exists", ofValue v)]
  | .listAppend v => object [("list_append", ofValue v)]
  | .add v => object [("add", ofValue v)]
  | .remove => .string "remove"
  | .removeAt indexes => object [("remove_at", array count indexes)]
  | .delete v => object [("delete", ofValue v)]

end SingleTable.Form
