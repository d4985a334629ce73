import SingleTable.Expression.Binding

/-!
# Updates

An update body lists one action per path.  It compiles to up to four clauses, `SET`, `ADD`,
`REMOVE` and `DELETE`, each the list of its items in the order of the actions.
-/

namespace SingleTable

/-- A change of one path. -/
inductive UpdateAction where
  | set (value : Value)
  | increment (value : Value)
  | decrement (value : Value)
  /-- Set the path unless it has a value. -/
  | setIfAbsent (value : Value)
  | listAppend (value : Value)
  /-- Add to a number or a set. -/
  | add (value : Value)
  | remove
  /-- Remove list elements by index. -/
  | removeAt (indexes : List Nat)
  /-- Delete from a set. -/
  | delete (value : Value)
  deriving DecidableEq

namespace UpdateAction

/-- The scalar that an action assigns as it is: the only change a key can follow. -/
def literal? : UpdateAction → Option Value
  | set value => if value.isScalar then some value else none
  | _ => none

/-- Whether an action leaves its path without a value. -/
def clears : UpdateAction → Bool
  | remove => true
  | set value => value.isNull
  | _ => false

end UpdateAction

/-- The actions of an update in order, one per path. -/
structure UpdateBody where
  actions : List (String × UpdateAction) := []
  /-- No path occurs twice. -/
  nodup : (actions.map Prod.fst).Nodup := by simp
  deriving DecidableEq

namespace UpdateBody

/-- Put an action in the place of one on the same path, or at the end. -/
def pushAction (path : String) (action : UpdateAction) :
    List (String × UpdateAction) → List (String × UpdateAction)
  | [] => [(path, action)]
  | (p, a) :: rest =>
    if p = path then (p, action) :: rest else (p, a) :: pushAction path action rest

theorem mem_paths_pushAction {path p : String} {action : UpdateAction} :
    ∀ {actions : List (String × UpdateAction)},
      p ∈ (pushAction path action actions).map Prod.fst → p = path ∨ p ∈ actions.map Prod.fst
  | [], h => by simpa [pushAction] using h
  | (q, a) :: rest, h => by
    simp only [pushAction] at h
    split at h
    · exact .inr (by simpa using h)
    · rcases List.mem_cons.1 h with h | h
      · exact .inr (by simp [h])
      · rcases mem_paths_pushAction h with h | h
        · exact .inl h
        · exact .inr (List.mem_cons_of_mem _ h)

theorem nodup_pushAction (path : String) (action : UpdateAction) :
    ∀ {actions : List (String × UpdateAction)}, (actions.map Prod.fst).Nodup →
      ((pushAction path action actions).map Prod.fst).Nodup
  | [], _ => by simp [pushAction]
  | (q, a) :: rest, h => by
    obtain ⟨hq, hrest⟩ := List.nodup_cons.1 h
    simp only [pushAction]
    split
    · exact List.nodup_cons.2 ⟨hq, hrest⟩
    · next hne =>
      refine List.nodup_cons.2 ⟨fun hm => ?_, nodup_pushAction path action hrest⟩
      rcases mem_paths_pushAction hm with h | h
      · exact hne h
      · exact hq h

/-- Add an action; it replaces an earlier action on the same path in its place. -/
def push (body : UpdateBody) (path : String) (action : UpdateAction) : UpdateBody :=
  ⟨pushAction path action body.actions, nodup_pushAction path action body.nodup⟩

def pushAll (body : UpdateBody) (actions : List (String × UpdateAction)) : UpdateBody :=
  actions.foldl (fun body a => body.push a.1 a.2) body

def ofList (actions : List (String × UpdateAction)) : UpdateBody := pushAll {} actions

def ofItem (item : Item) : UpdateBody :=
  ofList (item.entries.map fun e => (e.1, .set e.2))

def get? (body : UpdateBody) (path : String) : Option UpdateAction :=
  (body.actions.find? (·.1 = path)).map Prod.snd

def isEmpty (body : UpdateBody) : Bool := body.actions.isEmpty

end UpdateBody

/-! ## Clauses -/

/-- The clauses of an update expression, each item in its written form, and what their
placeholders stand for. -/
structure UpdateClauses where
  set : List String := []
  add : List String := []
  remove : List String := []
  delete : List String := []
  bindings : Bindings := {}
  deriving DecidableEq

/-- A computation that adds to clauses and may fail; the clauses survive a failure. -/
abbrev Updating (α : Type) := ExceptT Error (StateM UpdateClauses) α

namespace UpdateClauses

def isEmpty (clauses : UpdateClauses) : Bool :=
  clauses.set.isEmpty && clauses.add.isEmpty && clauses.remove.isEmpty && clauses.delete.isEmpty

def clauseText (keyword : String) (items : List String) : List String :=
  if items.isEmpty then [] else [keyword ++ " " ++ ", ".intercalate items]

def text (clauses : UpdateClauses) : String :=
  " ".intercalate (clauseText "SET" clauses.set ++ clauseText "ADD" clauses.add
    ++ clauseText "REMOVE" clauses.remove ++ clauseText "DELETE" clauses.delete)

def compile (clauses : UpdateClauses) : Except Error CompiledExpression :=
  if clauses.isEmpty then .error .emptyUpdate else .ok ⟨clauses.text, clauses.bindings⟩

def append (clauses other : UpdateClauses) : UpdateClauses :=
  { clauses with
    set := clauses.set ++ other.set
    add := clauses.add ++ other.add
    remove := clauses.remove ++ other.remove
    delete := clauses.delete ++ other.delete }

end UpdateClauses

namespace Updating

def bind {α : Type} (step : Binding α) : Updating α := fun clauses =>
  let (result, bindings) := step clauses.bindings
  (result, { clauses with bindings })

/-- The items that an action adds, given the reference to its path and the placeholder of
its value. -/
def items (reference placeholder : String) : UpdateAction → UpdateClauses
  | .set _ => { set := [reference ++ " = " ++ placeholder] }
  | .increment _ => { set := [reference ++ " = " ++ reference ++ " + " ++ placeholder] }
  | .decrement _ => { set := [reference ++ " = " ++ reference ++ " - " ++ placeholder] }
  | .setIfAbsent _ =>
    { set := [reference ++ " = if_not_exists(" ++ reference ++ ", " ++ placeholder ++ ")"] }
  | .listAppend _ =>
    { set := [reference ++ " = list_append(" ++ reference ++ ", " ++ placeholder ++ ")"] }
  | .add _ => { add := [reference ++ " " ++ placeholder] }
  | .remove => { remove := [reference] }
  | .removeAt indexes =>
    { remove := indexes.map fun i => reference ++ "[" ++ i.repr ++ "]" }
  | .delete _ => { delete := [reference ++ " " ++ placeholder] }

def operand? : UpdateAction → Option Value
  | .set v | .increment v | .decrement v | .setIfAbsent v | .listAppend v | .add v
  | .delete v => some v
  | .remove | .removeAt _ => none

/-- Add an action on a path: its name is bound, then its value, then its items follow. -/
def apply (path : String) (action : UpdateAction) : Updating Unit := do
  let reference ← bind (ExpressionKind.update.bindPath path)
  let placeholder ← match operand? action with
    | none => pure ""
    | some value => bind (ExpressionKind.update.bindValue path "" value)
  modify (·.append (items reference placeholder action))

def applyAll (actions : List (String × UpdateAction)) : Updating Unit :=
  actions.forM fun (path, action) => apply path action

def merge (other : UpdateClauses) : Updating Unit := do
  bind (Binding.all other.bindings)
  modify (·.append other)

def build (steps : Updating Unit) : Except Error UpdateClauses :=
  match steps.run.run {} with
  | (.ok (), clauses) => .ok clauses
  | (.error e, _) => .error e

end Updating

def UpdateBody.clauses (body : UpdateBody) : Except Error UpdateClauses :=
  if body.isEmpty then .error .emptyUpdate
  else Updating.build (Updating.applyAll body.actions)

end SingleTable
