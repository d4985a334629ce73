import SingleTable.Expression.Binding

/-!
# Expressions under construction

A draft is an expression that grows by steps such as `compare` and `merge`.  It remembers
the attribute reference emitted last, so that `size` can wrap it in place: the text is kept
in three parts, what stands before that reference, the reference, and what stands after it.

Every step is a computation of type `Drafting`.  A step that fails keeps what it had bound
and written before it failed.
-/

namespace SingleTable

/-- How two conditions are joined. -/
inductive Connective where
  | and
  | or
  deriving DecidableEq, Repr

def Connective.text : Connective → String
  | and => "AND"
  | or => "OR"

inductive Comparison where
  | equal
  | notEqual
  | less
  | lessOrEqual
  | greater
  | greaterOrEqual
  deriving DecidableEq, Repr

def Comparison.symbol : Comparison → String
  | equal => "="
  | notEqual => "<>"
  | less => "<"
  | lessOrEqual => "<="
  | greater => ">"
  | greaterOrEqual => ">="

inductive AttributeFunction where
  | beginsWith
  | contains
  | present
  | absent
  | hasType
  deriving DecidableEq, Repr

def AttributeFunction.text : AttributeFunction → String
  | beginsWith => "begins_with"
  | contains => "contains"
  | present => "attribute_exists"
  | absent => "attribute_not_exists"
  | hasType => "attribute_type"

/-- An expression under construction. -/
structure Draft where
  kind : ExpressionKind
  /-- The text before the reference emitted last. -/
  before : String := ""
  /-- The reference emitted last, wrapped as often as `size` was asked for. -/
  last : Option String := none
  /-- The text after the reference emitted last. -/
  after : String := ""
  bindings : Bindings := {}
  deriving DecidableEq

/-- A computation that writes on a draft and may fail; the draft survives a failure. -/
abbrev Drafting (α : Type) := ExceptT Error (StateM Draft) α

namespace Draft

def text (draft : Draft) : String := draft.before ++ draft.last.getD "" ++ draft.after

def isEmpty (draft : Draft) : Bool := draft.text.isEmpty

def withText (draft : Draft) (text : String) : Draft :=
  { draft with before := text, last := none, after := "" }

def push (draft : Draft) (text : String) : Draft := { draft with after := draft.after ++ text }

/-- The draft with a blank added, unless its text is empty or ends where none is wanted. -/
def pushBlank (draft : Draft) : Draft :=
  match draft.text.toList.getLast? with
  | none => draft
  | some c => if c = ' ' ∨ c = '(' then draft else draft.push " "

def pushReference (draft : Draft) (reference : String) : Draft :=
  { draft with before := draft.text, last := some reference, after := "" }

def compiled? (draft : Draft) : Option CompiledExpression :=
  if draft.isEmpty then none else some ⟨draft.text, draft.bindings⟩

end Draft

namespace Drafting

/-! ## Binding within a draft -/

def bind {α : Type} (step : Binding α) : Drafting α := fun draft =>
  let (result, bindings) := step draft.bindings
  (result, { draft with bindings })

def bindPath (path : String) : Drafting String := do
  bind ((← get).kind.bindPath path)

def bindValue (path suffix : String) (value : Value) : Drafting String := do
  bind ((← get).kind.bindValue path suffix value)

def reference (path : String) : Drafting Unit := do
  let text ← bindPath path
  modify (·.pushReference text)

/-! ## Steps -/

def compare (path : String) (comparison : Comparison) (value : Value) : Drafting Unit := do
  let placeholder ← bindValue path "" value
  modify (·.pushBlank)
  reference path
  modify (·.push (" " ++ comparison.symbol ++ " " ++ placeholder))

def call (function : AttributeFunction) (path : String) (value : Option Value) :
    Drafting Unit := do
  let placeholder ← match value with
    | none => pure none
    | some value => some <$> bindValue path "" value
  modify (·.pushBlank)
  modify (·.push (function.text ++ "("))
  reference path
  match placeholder with
  | none => modify (·.push ")")
  | some placeholder => modify (·.push (", " ++ placeholder ++ ")"))

def between (path : String) (values : List Value) : Drafting Unit := do
  match values with
  | [low, high] =>
    let low ← bindValue path "_start" low
    let high ← bindValue path "_end" high
    modify (·.pushBlank)
    reference path
    modify (·.push (" BETWEEN " ++ low ++ " AND " ++ high))
  | _ => throw (.rangeArity .between path values.length)

def bindNumbered (path : String) : Nat → List Value → Drafting (List String)
  | _, [] => return []
  | n, value :: rest => do
    let placeholder ← bindValue path ("_" ++ n.repr) value
    return placeholder :: (← bindNumbered path (n + 1) rest)

def inList (path : String) (values : List Value) : Drafting Unit := do
  if values.isEmpty then
    throw (.rangeArity .inList path 0)
  let placeholders ← bindNumbered path 0 values
  modify (·.pushBlank)
  reference path
  modify (·.push (" IN (" ++ ", ".intercalate placeholders ++ ")"))

def size : Drafting Unit :=
  modify fun draft =>
    { draft with last := draft.last.map fun reference => "size(" ++ reference ++ ")" }

def negate : Drafting Unit :=
  modify fun draft =>
    if draft.isEmpty then draft else draft.withText ("NOT (" ++ draft.text ++ ")")

/-- Join another expression to this one.  An empty expression joins without a trace; two
that are not empty are put between parentheses. -/
def merge (other : Draft) (connective : Connective) : Drafting Unit := do
  if other.isEmpty then
    return
  bind (Binding.all other.bindings)
  modify fun draft =>
    draft.withText
      (if draft.isEmpty then other.text
        else "(" ++ draft.text ++ ") " ++ connective.text ++ " (" ++ other.text ++ ")")

def mergeMany (others : List Draft) (connective : Connective) : Drafting Unit :=
  others.forM fun other => merge other connective

/-- Require that another expression does not hold. -/
def exclude (other : Draft) : Drafting Unit := do
  let negated := (negate.run.run other).2
  merge negated .and

/-! ## Running -/

def build (kind : ExpressionKind) (steps : Drafting Unit) : Except Error Draft :=
  match steps.run.run { kind } with
  | (.ok (), draft) => .ok draft
  | (.error e, _) => .error e

end Drafting

end SingleTable
