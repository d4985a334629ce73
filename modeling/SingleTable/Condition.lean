import SingleTable.Expression.Draft

/-!
# Conditions

A condition is a tree: tests of attributes joined by `all`, `any` and `not`.  It guards a
write or filters what a query or scan returns.  `compile` turns it into an expression; a
tree without any test compiles to no expression at all.
-/

namespace SingleTable

/-- A test of one attribute. -/
inductive AttributeTest where
  | compare (comparison : Comparison) (value : Value)
  | beginsWith (value : Value)
  | contains (value : Value)
  /-- Takes exactly two values. -/
  | between (values : List Value)
  /-- Takes at least one value. -/
  | inList (values : List Value)
  | present
  | absent
  /-- The code of a type, such as `S`. -/
  | hasType (code : String)
  /-- A test of the size of the attribute. -/
  | size (test : AttributeTest)
  deriving DecidableEq

/-- A condition on an item. -/
inductive Condition where
  | test (path : String) (test : AttributeTest)
  | all (conditions : List Condition)
  | any (conditions : List Condition)
  | not (condition : Condition)
  deriving Inhabited

namespace Condition

/-! ## Building -/

def equals (path : String) (value : Value) : Condition := .test path (.compare .equal value)

def present (path : String) : Condition := .test path .present

def absent (path : String) : Condition := .test path .absent

/-- Both conditions; a condition that is a conjunction already is extended. -/
def and (condition other : Condition) : Condition :=
  match condition with
  | all conditions => .all (conditions ++ [other])
  | condition => .all [condition, other]

/-- Either condition; a condition that is a disjunction already is extended. -/
def or (condition other : Condition) : Condition :=
  match condition with
  | any conditions => .any (conditions ++ [other])
  | condition => .any [condition, other]

def andOption (condition : Condition) : Option Condition → Condition
  | none => condition
  | some other => condition.and other

/-! ## Compiling -/

def draftTest (path : String) : AttributeTest → Drafting Unit
  | .compare comparison value => Drafting.compare path comparison value
  | .beginsWith value => Drafting.call .beginsWith path (some value)
  | .contains value => Drafting.call .contains path (some value)
  | .between values => Drafting.between path values
  | .inList values => Drafting.inList path values
  | .present => Drafting.call .present path none
  | .absent => Drafting.call .absent path none
  | .hasType code => Drafting.call .hasType path (some (.string code))
  | .size inner => do
    draftTest path inner
    Drafting.size

mutual

/-- The draft of a condition.  The parts of a list are drafted first and joined then. -/
def draft (kind : ExpressionKind) : Condition → Except Error Draft
  | test path attributeTest => Drafting.build kind (draftTest path attributeTest)
  | all conditions => do
    let parts ← draftAll kind conditions
    Drafting.build kind (Drafting.mergeMany parts .and)
  | any conditions => do
    let parts ← draftAll kind conditions
    Drafting.build kind (Drafting.mergeMany parts .or)
  | not condition => do
    let inner ← draft kind condition
    return (Drafting.negate.run.run inner).2

def draftAll (kind : ExpressionKind) : List Condition → Except Error (List Draft)
  | [] => .ok []
  | condition :: rest => do
    let first ← draft kind condition
    let others ← draftAll kind rest
    return first :: others

end

/-- The expression of a condition; there is none if the condition tests nothing. -/
def compile (kind : ExpressionKind) (condition : Condition) :
    Except Error (Option CompiledExpression) :=
  (draft kind condition).map (·.compiled?)

end Condition

/-! ## Key conditions -/

/-- What a query may ask of the sort key. -/
inductive SortKeyTest where
  | equal (value : Value)
  | less (value : Value)
  | lessOrEqual (value : Value)
  | greater (value : Value)
  | greaterOrEqual (value : Value)
  | beginsWith (value : Value)
  | between (low high : Value)
  deriving DecidableEq

namespace SortKeyTest

def toAttributeTest : SortKeyTest → AttributeTest
  | equal value => .compare .equal value
  | less value => .compare .less value
  | lessOrEqual value => .compare .lessOrEqual value
  | greater value => .compare .greater value
  | greaterOrEqual value => .compare .greaterOrEqual value
  | beginsWith value => .beginsWith value
  | between low high => .between [low, high]

end SortKeyTest

/-- The key condition of a query: the value of the partition key and, if asked for, a test
of the sort key. -/
structure KeyCondition where
  partitionKey : String
  partition : Value
  sort : Option (String × SortKeyTest) := none
  deriving DecidableEq

namespace KeyCondition

def draft (condition : KeyCondition) : Except Error Draft := do
  let kind := ExpressionKind.keyCondition
  let base := Drafting.compare condition.partitionKey .equal condition.partition
  match condition.sort with
  | none => Drafting.build kind base
  | some (sortKey, test) =>
    let partition ← Drafting.build kind base
    let sort ← Drafting.build kind (Condition.draftTest sortKey test.toAttributeTest)
    match (Drafting.merge sort .and).run.run partition with
    | (.ok (), joined) => return joined
    | (.error e, _) => throw e

def compile (condition : KeyCondition) : Except Error (Option CompiledExpression) :=
  condition.draft.map (·.compiled?)

end KeyCondition

/-! ## Projections -/

namespace Projection

/-- Write the references to some paths, to be read in that order. -/
def draftPaths (paths : List String) : Drafting Unit := do
  let references ← paths.mapM Drafting.bindPath
  modify (·.withText (", ".intercalate references))

/-- The expression that reads some paths only; there is none if there are no paths. -/
def compile (paths : List String) : Except Error (Option CompiledExpression) :=
  (Drafting.build .projection (draftPaths paths)).map (·.compiled?)

end Projection

end SingleTable
