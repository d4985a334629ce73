import SingleTable.Error
import SingleTable.Expression.Path

/-!
# Placeholders and what they stand for

Expressions never contain names or values themselves.  They contain placeholders, and the
request carries what each placeholder stands for.  A placeholder is derived from the kind of
the expression and the path it is used for, so different kinds can share one request; once
bound it keeps its meaning, and asking it to mean something else is an error.

Binding goes step by step and a step that fails keeps what was bound before it, so the
steps are computations of type `Binding`, which carry the bindings through an error.
-/

namespace SingleTable

/-- What an expression is for. -/
inductive ExpressionKind where
  /-- The condition of a write. -/
  | condition
  /-- The filter of a query or scan. -/
  | filter
  /-- The key condition of a query. -/
  | keyCondition
  /-- The paths to read; holds names only. -/
  | projection
  /-- The changes of an update. -/
  | update
  deriving DecidableEq, Repr

def ExpressionKind.mark : ExpressionKind → String
  | condition => "CE_"
  | filter => "FE_"
  | keyCondition => "KY_CE_"
  | projection => "PE_"
  | update => "UE_"

/-- What the placeholders of an expression or a request stand for. -/
structure Bindings where
  names : NameMap String := ∅
  values : NameMap Value := ∅
  deriving DecidableEq, Inhabited

/-- A computation that binds placeholders and may fail; bindings survive a failure. -/
abbrev Binding (α : Type) := ExceptT Error (StateM Bindings) α

namespace Binding

def name (placeholder requested : String) : Binding Unit := fun bindings =>
  match bindings.names.get? placeholder with
  | some bound =>
    if bound = requested then (.ok (), bindings)
    else (.error (.duplicateBinding placeholder (.names bound requested)), bindings)
  | none => (.ok (), { bindings with names := bindings.names.insert placeholder requested })

def value (placeholder : String) (requested : Value) : Binding Unit := fun bindings =>
  match bindings.values.get? placeholder with
  | some bound =>
    if bound = requested then (.ok (), bindings)
    else (.error (.duplicateBinding placeholder (.values bound requested)), bindings)
  | none => (.ok (), { bindings with values := bindings.values.insert placeholder requested })

def all (bindings : Bindings) : Binding Unit := do
  bindings.names.entries.forM fun (placeholder, requested) => name placeholder requested
  bindings.values.entries.forM fun (placeholder, requested) => value placeholder requested

end Binding

/-! ## References to paths -/

/-- How one segment of a path appears in an expression. -/
structure Reference where
  placeholder : String
  name : String
  indexes : String
  deriving DecidableEq, Repr

namespace ExpressionKind

/-- The references of the segments of a path, after segments joined to `qualified`.  Each
placeholder carries the names of all segments up to its own. -/
def referencesFrom (kind : ExpressionKind) : String → List PathSegment → List Reference
  | _, [] => []
  | qualified, segment :: rest =>
    let joined := if qualified.isEmpty then segment.name else qualified ++ "_" ++ segment.name
    ⟨"#" ++ kind.mark ++ joined, segment.name, segment.indexes⟩
      :: referencesFrom kind joined rest

def references (kind : ExpressionKind) (path : String) : List Reference :=
  referencesFrom kind "" (Path.segments path)

/-- The text that refers to a path: its placeholders between dots, with list indexes kept. -/
def referenceText (kind : ExpressionKind) (path : String) : String :=
  ".".intercalate ((kind.references path).map fun r => r.placeholder ++ r.indexes)

/-- The text of a path inside a value placeholder. -/
def valueKey (path : String) : String :=
  String.ofList (path.toList.filterMap fun c =>
    if c = '.' ∨ c = '[' then some '_' else if c = ']' then none else some c)

def valuePlaceholder (kind : ExpressionKind) (path suffix : String) : String :=
  ":" ++ kind.mark ++ valueKey path ++ suffix

def bindPath (kind : ExpressionKind) (path : String) : Binding String := do
  (kind.references path).forM fun r => Binding.name r.placeholder r.name
  return kind.referenceText path

def bindValue (kind : ExpressionKind) (path suffix : String) (value : Value) :
    Binding String := do
  if kind = .projection then
    throw (.valueInProjection path)
  Binding.value (kind.valuePlaceholder path suffix) value
  return kind.valuePlaceholder path suffix

end ExpressionKind

/-! ## Compiled expressions -/

/-- The text of an expression and what its placeholders stand for. -/
structure CompiledExpression where
  text : String
  bindings : Bindings
  deriving DecidableEq

namespace Binding

def absorb : Option CompiledExpression → Binding (Option String)
  | none => return none
  | some expression => do
    all expression.bindings
    return some expression.text

/-- Take the outcome of compiling an expression into a request. -/
def absorbCompiled : Except Error (Option CompiledExpression) → Binding (Option String)
  | .ok expression => absorb expression
  | .error e => throw e

/-- The result of a computation and all that it bound, if it does not fail. -/
def collect {α : Type} (step : Binding α) : Except Error (α × Bindings) :=
  match step.run.run {} with
  | (.ok result, bindings) => .ok (result, bindings)
  | (.error e, _) => .error e

end Binding

end SingleTable
