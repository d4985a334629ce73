import SingleTable.Proofs.Expression.Resolution

/-!
# What a condition says

The meaning of a condition is a formula over paths and values: lists are joined from the left,
a list of one condition is that condition, and a test of the size of an attribute looks at a
wrapped operand.  A condition that tests nothing has no meaning, and joins without a trace.
-/

namespace SingleTable

open Grammar

/-! ## Meaning -/

def AttributeTest.predicate? (operand : Operand (List PathSegment) Value) :
    AttributeTest → Option (Predicate (List PathSegment) Value)
  | .compare comparison value => some (.compare operand comparison (.value value))
  | .beginsWith value => some (.call .beginsWith operand (some (.value value)))
  | .contains value => some (.call .contains operand (some (.value value)))
  | .between [low, high] => some (.between operand (.value low) (.value high))
  | .between _ => none
  | .inList (first :: others) => some (.oneOf operand (.value first) (others.map .value))
  | .inList [] => none
  | .present => some (.call .present operand none)
  | .absent => some (.call .absent operand none)
  | .hasType code => some (.call .hasType operand (some (.value (.string code))))
  | .size test => test.predicate? (.size operand)

def Connective.apply {α : Type} : Connective → Formula α → Formula α → Formula α
  | .and => .and
  | .or => .or

def Connective.token : Connective → Token
  | .and => .and
  | .or => .or

def Connective.join {α : Type} (connective : Connective) :
    Option (Formula α) → Option (Formula α) → Option (Formula α)
  | none, right => right
  | left, none => left
  | some left, some right => some (connective.apply left right)

namespace Condition

mutual

def meaning : Condition → Option (Formula (Predicate (List PathSegment) Value))
  | .test path attributeTest => (attributeTest.predicate? (.path (Path.segments path))).map .test
  | .all conditions => (meanings conditions).foldl Connective.and.join none
  | .any conditions => (meanings conditions).foldl Connective.or.join none
  | .not condition => condition.meaning.map .not

def meanings : List Condition → List (Option (Formula (Predicate (List PathSegment) Value)))
  | [] => []
  | condition :: conditions => condition.meaning :: meanings conditions

end

mutual

def paths : Condition → List String
  | .test path _ => [path]
  | .all conditions => allPaths conditions
  | .any conditions => allPaths conditions
  | .not condition => condition.paths

def allPaths : List Condition → List String
  | [] => []
  | condition :: conditions => condition.paths ++ allPaths conditions

end

mutual

def isFilled : Condition → Bool
  | .test _ _ => true
  | .all conditions => !conditions.isEmpty && allFilled conditions
  | .any conditions => !conditions.isEmpty && allFilled conditions
  | .not condition => condition.isFilled

def allFilled : List Condition → Bool
  | [] => true
  | condition :: conditions => condition.isFilled && allFilled conditions

end

end Condition

def KeyCondition.paths (condition : KeyCondition) : List String :=
  condition.partitionKey :: condition.sort.toList.map Prod.fst

/-- The condition that a text says, given what its placeholders stand for. -/
def Grammar.readCondition (text : String) (bindings : Bindings) :
    Option (Formula (Predicate (List PathSegment) Value)) := do
  let tokens ← tokens? text
  let formula ← parseFormula tokens
  formula.resolve bindings

def Draft.Expresses (draft : Draft) : Option (Formula (Predicate (List PathSegment) Value)) → Prop
  | none => draft.text = ""
  | some meaning => ∃ written : FormulaSyntax,
      Lexes draft.text written.tokens ∧ written.resolve draft.bindings = some meaning

end SingleTable
