import SingleTable.Proofs.Update.Grammar
import SingleTable.Update

/-!
# Updates are read back as they were meant

The meaning of an update is a list of changes of paths, given by the actions it was made of.
The text of the clauses that `Updating` writes is read back as these changes, grouped by clause
(`UpdateClauses.readUpdate_of_compile`).
-/

namespace SingleTable

open Grammar

/-! ## Meaning -/

abbrev ItemChange := Change (List PathSegment) Value

def Path.element (index : Nat) : List PathSegment → List PathSegment
  | [] => []
  | [segment] => [⟨segment.name, segment.indexes ++ indexText [index.repr]⟩]
  | segment :: rest => segment :: element index rest

def UpdateAction.changes (target : List PathSegment) : UpdateAction → List ItemChange
  | .set value => [.set target (.term (.value value))]
  | .increment value => [.set target (.plus (.path target) (.value value))]
  | .decrement value => [.set target (.minus (.path target) (.value value))]
  | .setIfAbsent value => [.set target (.term (.ifNotExists target (.value value)))]
  | .listAppend value => [.set target (.term (.listAppend (.path target) (.value value)))]
  | .add value => [.add target value]
  | .remove => [.remove target]
  | .removeAt indexes => indexes.map fun index => .remove (Path.element index target)
  | .delete value => [.delete target value]

def actionChanges (actions : List (String × UpdateAction)) : List ItemChange :=
  actions.flatMap fun (path, action) => action.changes (Path.segments path)

/-- The clauses in the order in which they are written. -/
def Grammar.Clause.all : List Clause := [.set, .add, .remove, .delete]

def byClause (changes : List ItemChange) : List ItemChange :=
  Clause.all.flatMap fun clause => changes.filter (·.clause = clause)

theorem mem_byClause {changes : List ItemChange} {change : ItemChange} :
    change ∈ byClause changes ↔ change ∈ changes := by
  simp only [byClause, List.mem_flatMap, List.mem_filter, decide_eq_true_eq]
  constructor
  · rintro ⟨clause, -, isMember, -⟩
    exact isMember
  · intro isMember
    exact ⟨change.clause, by cases change <;> simp [Clause.all, Change.clause], isMember, rfl⟩

/-! ## Resolving -/

namespace Grammar

/-- A term with its placeholders replaced by what they stand for. -/
def Term.resolve (bindings : Bindings) :
    Term PathSyntax String → Option (Term (List PathSegment) Value)
  | .path written => (written.resolve bindings).map .path
  | .value placeholder => (bindings.values.get? placeholder).map .value
  | .ifNotExists written otherwise => do
    return .ifNotExists (← written.resolve bindings) (← otherwise.resolve bindings)
  | .listAppend first second => do
    return .listAppend (← first.resolve bindings) (← second.resolve bindings)

def Assigned.resolve (bindings : Bindings) :
    Assigned PathSyntax String → Option (Assigned (List PathSegment) Value)
  | .term computed => (computed.resolve bindings).map .term
  | .plus left right => do return .plus (← left.resolve bindings) (← right.resolve bindings)
  | .minus left right => do return .minus (← left.resolve bindings) (← right.resolve bindings)

def Change.resolve (bindings : Bindings) : ChangeSyntax → Option ItemChange
  | .set target assigned => do
    return .set (← target.resolve bindings) (← assigned.resolve bindings)
  | .add target placeholder => do
    return .add (← target.resolve bindings) (← bindings.values.get? placeholder)
  | .remove target => (target.resolve bindings).map .remove
  | .delete target placeholder => do
    return .delete (← target.resolve bindings) (← bindings.values.get? placeholder)

section Within

variable {bindings larger : Bindings} (within : bindings.Within larger)
include within

theorem Term.resolve_within {term : Term PathSyntax String}
    {resolved : Term (List PathSegment) Value} (isResolved : term.resolve bindings = some resolved) :
    term.resolve larger = some resolved := by
  induction term generalizing resolved with
  | path written =>
    obtain ⟨segments, isPath, rfl⟩ := Option.map_eq_some_iff.1 isResolved
    simp only [Term.resolve, PathSyntax.resolve_within within isPath, Option.map_some]
  | value placeholder =>
    obtain ⟨value, isBound, rfl⟩ := Option.map_eq_some_iff.1 isResolved
    simp only [Term.resolve, within.values isBound, Option.map_some]
  | ifNotExists written otherwise inductionHypothesis =>
    simp only [Term.resolve, Option.pure_def, Option.bind_eq_bind, Option.bind_eq_some_iff,
      Option.some.injEq] at isResolved ⊢
    obtain ⟨_, isPath, _, isOtherwise, rfl⟩ := isResolved
    exact ⟨_, PathSyntax.resolve_within within isPath, _, inductionHypothesis isOtherwise, rfl⟩
  | listAppend first second firstHypothesis secondHypothesis =>
    simp only [Term.resolve, Option.pure_def, Option.bind_eq_bind, Option.bind_eq_some_iff,
      Option.some.injEq] at isResolved ⊢
    obtain ⟨_, isFirst, _, isSecond, rfl⟩ := isResolved
    exact ⟨_, firstHypothesis isFirst, _, secondHypothesis isSecond, rfl⟩

theorem Assigned.resolve_within {assigned : Assigned PathSyntax String}
    {resolved : Assigned (List PathSegment) Value}
    (isResolved : assigned.resolve bindings = some resolved) : assigned.resolve larger = some resolved := by
  cases assigned with
  | term computed =>
    obtain ⟨inner, isInner, rfl⟩ := Option.map_eq_some_iff.1 isResolved
    simp only [Assigned.resolve, Term.resolve_within within isInner, Option.map_some]
  | plus left right | minus left right =>
    simp only [Assigned.resolve, Option.pure_def, Option.bind_eq_bind, Option.bind_eq_some_iff,
      Option.some.injEq] at isResolved ⊢
    obtain ⟨_, isLeft, _, isRight, rfl⟩ := isResolved
    exact ⟨_, Term.resolve_within within isLeft, _, Term.resolve_within within isRight, rfl⟩

theorem Change.resolve_within {change : ChangeSyntax} {resolved : ItemChange}
    (isResolved : change.resolve bindings = some resolved) : change.resolve larger = some resolved := by
  cases change with
  | set target assigned =>
    simp only [Change.resolve, Option.pure_def, Option.bind_eq_bind, Option.bind_eq_some_iff,
      Option.some.injEq] at isResolved ⊢
    obtain ⟨_, isTarget, _, isAssigned, rfl⟩ := isResolved
    exact ⟨_, PathSyntax.resolve_within within isTarget, _,
      Assigned.resolve_within within isAssigned, rfl⟩
  | add target placeholder | delete target placeholder =>
    simp only [Change.resolve, Option.pure_def, Option.bind_eq_bind, Option.bind_eq_some_iff,
      Option.some.injEq] at isResolved ⊢
    obtain ⟨_, isTarget, _, isBound, rfl⟩ := isResolved
    exact ⟨_, PathSyntax.resolve_within within isTarget, _, within.values isBound, rfl⟩
  | remove target =>
    obtain ⟨inner, isInner, rfl⟩ := Option.map_eq_some_iff.1 isResolved
    simp only [Change.resolve, PathSyntax.resolve_within within isInner, Option.map_some]

end Within

/-- The changes that a text makes, given what its placeholders stand for. -/
def readUpdate (text : String) (bindings : Bindings) : Option (List ItemChange) := do
  let tokens ← tokens? text
  let changes ← parseUpdate tokens
  changes.mapM (Change.resolve bindings)

def WritesChange (bindings : Bindings) (clause : Clause) (text : String) (change : ItemChange) :
    Prop :=
  ∃ written : ChangeSyntax, written.clause = clause ∧ Lexes text written.tokens ∧
    written.resolve bindings = some change

theorem WritesChange.within {bindings larger : Bindings} {clause : Clause} {text : String}
    {change : ItemChange} (writes : WritesChange bindings clause text change)
    (within : bindings.Within larger) : WritesChange larger clause text change := by
  obtain ⟨written, sameClause, lexes, resolved⟩ := writes
  exact ⟨written, sameClause, lexes, Change.resolve_within within resolved⟩

/-! ## Elements of lists -/

theorem isDigits_repr (n : Nat) : IsDigits n.repr := by
  constructor
  · rw [Nat.toList_repr]
    exact Nat.toDigits_ne_nil
  · intro c isMember
    rw [Nat.toList_repr] at isMember
    exact Nat.isDigit_of_mem_toDigits (by decide) (by decide) isMember

theorem indexText_append (indexes others : List String) :
    indexText (indexes ++ others) = indexText indexes ++ indexText others := by
  induction indexes with
  | nil => simp [indexText]
  | cons digits indexes inductionHypothesis =>
    simp [indexText, inductionHypothesis, String.append_assoc]

def elementOf (digits : String) : SegmentSyntax → List SegmentSyntax → PathSyntax
  | last, [] => ⟨⟨last.placeholder, last.indexes ++ [digits]⟩, []⟩
  | first, second :: rest =>
    let inner := elementOf digits second rest
    ⟨first, inner.first :: inner.others⟩

theorem tokens_elementOf (digits : String) (first : SegmentSyntax) (others : List SegmentSyntax) :
    (elementOf digits first others).tokens =
      (⟨first, others⟩ : PathSyntax).tokens ++ indexTokens [digits] := by
  induction others generalizing first with
  | nil => simp [elementOf, PathSyntax.tokens, segmentTokens, indexTokens]
  | cons second others inductionHypothesis =>
    have inner := inductionHypothesis second
    simp only [PathSyntax.tokens, segmentTokens, List.cons_append, List.append_assoc,
      List.cons.injEq] at inner
    obtain ⟨placeholder_eq, rest_eq⟩ := inner
    simp only [elementOf, PathSyntax.tokens, segmentTokens, List.flatMap_cons, List.cons_append,
      List.append_assoc, placeholder_eq, rest_eq]

theorem resolve_elementOf {bindings : Bindings} (index : Nat) (first : SegmentSyntax)
    (others : List SegmentSyntax) {segments : List PathSegment}
    (resolved : (⟨first, others⟩ : PathSyntax).resolve bindings = some segments) :
    (elementOf index.repr first others).resolve bindings = some (Path.element index segments) := by
  induction others generalizing first segments with
  | nil =>
    simp only [PathSyntax.resolve, List.mapM_cons, List.mapM_nil, Option.pure_def,
      Option.bind_eq_bind, Option.bind_some, Option.bind_eq_some_iff, Option.some.injEq,
      SegmentSyntax.resolve, Option.map_eq_some_iff] at resolved
    obtain ⟨_, ⟨name, isBound, rfl⟩, rfl⟩ := resolved
    simp [elementOf, PathSyntax.resolve, SegmentSyntax.resolve, isBound, Path.element,
      indexText_append]
  | cons second others inductionHypothesis =>
    simp only [PathSyntax.resolve, List.mapM_cons (a := first), Option.pure_def,
      Option.bind_eq_bind, Option.bind_eq_some_iff, Option.some.injEq] at resolved
    obtain ⟨head, isHead, tail, isTail, rfl⟩ := resolved
    have inner := inductionHypothesis second isTail
    have shape : Path.element index (head :: tail) = head :: Path.element index tail := by
      cases tail with
      | nil =>
        simp [List.mapM_cons, Option.bind_eq_some_iff] at isTail
      | cons next tail => rfl
    simp only [PathSyntax.resolve] at inner
    simp [elementOf, PathSyntax.resolve, List.mapM_cons (a := first), isHead, inner, shape]

/-! ## Items -/

theorem Lexes.blank {first second : String} {firstTokens secondTokens : List Token}
    (lexesFirst : Lexes first firstTokens) (lexesSecond : Lexes second secondTokens) :
    Lexes (first ++ " " ++ second) (firstTokens ++ secondTokens) := by
  have lexesBlank : Lexes " " [] := by decide
  simpa using lexesFirst.joined lexesBlank lexesSecond ⟨' ', [], rfl, rfl⟩ ⟨' ', [], rfl, rfl⟩

theorem lexes_binary {name first second : String} {nameTokens firstTokens secondTokens : List Token}
    (lexesName : Lexes name nameTokens) (closes : Closes name) (lexesFirst : Lexes first firstTokens)
    (lexesSecond : Lexes second secondTokens) :
    Lexes (name ++ first ++ ", " ++ second ++ ")")
      (nameTokens ++ firstTokens ++ [.comma] ++ secondTokens ++ [.closeParen]) := by
  have lexesComma : Lexes ", " [.comma] := by decide
  have lexesClose : Lexes ")" [.closeParen] := by decide
  exact ((lexesName.closed lexesFirst closes).joined lexesComma lexesSecond
    ⟨',', [' '], rfl, rfl⟩ ⟨' ', [','], rfl, rfl⟩).followed lexesClose ⟨')', [], rfl, rfl⟩

section Items

variable {bindings : Bindings} {reference placeholder : String} {written : PathSyntax}
  {target : List PathSegment} {value : Value}
  (lexes : Lexes reference written.tokens)
  (resolved : written.resolve bindings = some target)
include lexes resolved

theorem writes_remove : WritesChange bindings .remove reference (.remove target) :=
  ⟨.remove written, rfl, lexes, by simp [Change.resolve, resolved]⟩

theorem writes_removeAt (index : Nat) :
    WritesChange bindings .remove (reference ++ "[" ++ index.repr ++ "]")
      (.remove (Path.element index target)) := by
  have allDigits : ∀ digits ∈ [index.repr], IsDigits digits := by simp [isDigits_repr]
  have lexesAll := lexes.followed (lexes_indexText allDigits) (opens_indexText (by simp))
  refine ⟨.remove (elementOf index.repr written.first written.others), rfl, ?_, ?_⟩
  · rw [Change.tokens, tokens_elementOf]
    simpa [indexText, String.append_assoc] using lexesAll
  · simp [Change.resolve, resolve_elementOf index written.first written.others resolved]

theorem writes_set {right : String} (assigned : Assigned PathSyntax String)
    {assignedTo : Assigned (List PathSegment) Value} (lexesRight : Lexes right assigned.tokens)
    (resolvedRight : assigned.resolve bindings = some assignedTo) :
    WritesChange bindings .set (reference ++ " = " ++ right) (.set target assignedTo) := by
  have lexesEqual : Lexes " = " [.comparison .equal] := by decide
  have lexesAll := lexes.joined lexesEqual lexesRight ⟨' ', "= ".toList, rfl, rfl⟩
    ⟨' ', " =".toList, rfl, rfl⟩
  refine ⟨.set written assigned, rfl, ?_, ?_⟩
  · simpa [Change.tokens] using lexesAll
  · simp [Change.resolve, resolved, resolvedRight]

variable (lexesValue : Lexes placeholder [.value placeholder])
  (isBound : bindings.values.get? placeholder = some value)
include lexesValue isBound

theorem writes_add : WritesChange bindings .add (reference ++ " " ++ placeholder)
    (.add target value) :=
  ⟨.add written placeholder, rfl, lexes.blank lexesValue,
    by simp [Change.resolve, resolved, isBound]⟩

theorem writes_delete : WritesChange bindings .delete (reference ++ " " ++ placeholder)
    (.delete target value) :=
  ⟨.delete written placeholder, rfl, lexes.blank lexesValue,
    by simp [Change.resolve, resolved, isBound]⟩

omit isBound

section Twice

variable (assigned : Assigned PathSyntax String) {assignedTo : Assigned (List PathSegment) Value}
  (resolvedRight : assigned.resolve bindings = some assignedTo)
include resolvedRight

/-- A sum or a difference of what the path has and the value. -/
theorem writes_arithmetic {mark : String} {markToken : Token} (lexesMark : Lexes mark [markToken])
    (opens : Opens mark) (closes : Closes mark)
    (tokens_eq : assigned.tokens = written.tokens ++ [markToken] ++ [.value placeholder]) :
    WritesChange bindings .set (reference ++ " = " ++ reference ++ mark ++ placeholder)
      (.set target assignedTo) := by
  have lexesRight := lexes.joined lexesMark lexesValue opens closes
  have writes := writes_set lexes resolved assigned (tokens_eq ▸ lexesRight) resolvedRight
  simpa only [String.append_assoc] using writes

/-- A function of what the path has and the value. -/
theorem writes_call {name opening : String} {nameTokens : List Token} (lexesName : Lexes name nameTokens)
    (closes : Closes name) (opening_eq : " = " ++ name = opening)
    (tokens_eq : assigned.tokens =
      nameTokens ++ written.tokens ++ [.comma] ++ [.value placeholder] ++ [.closeParen]) :
    WritesChange bindings .set (reference ++ opening ++ reference ++ ", " ++ placeholder ++ ")")
      (.set target assignedTo) := by
  have lexesRight := lexes_binary lexesName closes lexes lexesValue
  have writes := writes_set lexes resolved assigned (tokens_eq ▸ lexesRight) resolvedRight
  simpa only [← opening_eq, String.append_assoc] using writes

end Twice

end Items

end Grammar

/-! ## Clauses -/

def UpdateClauses.itemsOf (clauses : UpdateClauses) : Clause → List String
  | .set => clauses.set
  | .add => clauses.add
  | .remove => clauses.remove
  | .delete => clauses.delete

/-- The items of clauses are written for some changes, each in its clause and in order. -/
def UpdateClauses.Expresses (clauses : UpdateClauses) (changes : List ItemChange) : Prop :=
  ∀ clause, List.Forall₂ (WritesChange clauses.bindings clause) (clauses.itemsOf clause)
    (changes.filter (·.clause = clause))

namespace Updating

theorem actsOn_bind {α : Type} (step : Binding α) :
    ActsOn (Updating.bind step) step (·.bindings) fun clauses bindings => { clauses with bindings } :=
  fun _ => rfl

/-- One item in one clause, and nothing in the others. -/
theorem forall₂_writes_single {bindings : Bindings} {text : String} {change : ItemChange}
    {clauses : UpdateClauses} (writes : WritesChange bindings change.clause text change)
    (items_eq : ∀ other, clauses.itemsOf other = if other = change.clause then [text] else [])
    (clause : Clause) :
    List.Forall₂ (WritesChange bindings clause) (clauses.itemsOf clause)
      ([change].filter (·.clause = clause)) := by
  rw [items_eq]
  by_cases same : clause = change.clause
  · subst same
    simpa using writes
  · simp [same, Ne.symm same]

theorem forall₂_writes_removeAt {bindings : Bindings} {reference : String} {written : PathSyntax}
    {target : List PathSegment} (lexes : Lexes reference written.tokens)
    (resolved : written.resolve bindings = some target) (placeholder : String) (indexes : List Nat)
    (clause : Clause) :
    List.Forall₂ (WritesChange bindings clause)
      ((items reference placeholder (.removeAt indexes)).itemsOf clause)
      (((UpdateAction.removeAt indexes).changes target).filter (·.clause = clause)) := by
  cases clause with
  | remove =>
    have kept : (indexes.map fun index => (Change.remove (Path.element index target) : ItemChange)).filter
        (·.clause = .remove) =
        indexes.map fun index => .remove (Path.element index target) := by
      rw [List.filter_eq_self]
      intro change isMember
      obtain ⟨index, -, rfl⟩ := List.mem_map.1 isMember
      rfl
    simp only [UpdateAction.changes, items, UpdateClauses.itemsOf, kept, List.forall₂_map_left_iff,
      List.forall₂_map_right_iff, List.forall₂_same]
    exact fun index _ => writes_removeAt lexes resolved index
  | set | add | delete =>
    simp [UpdateAction.changes, items, UpdateClauses.itemsOf, Change.clause]

theorem forall₂_writes_items {bindings : Bindings} {reference placeholder : String}
    {written : PathSyntax} {target : List PathSegment} {action : UpdateAction}
    (lexes : Lexes reference written.tokens) (resolved : written.resolve bindings = some target)
    (lexesValue : ∀ value ∈ operand? action, Lexes placeholder [.value placeholder] ∧
      bindings.values.get? placeholder = some value) (clause : Clause) :
    List.Forall₂ (WritesChange bindings clause) ((items reference placeholder action).itemsOf clause)
      ((action.changes target).filter (·.clause = clause)) := by
  cases action with
  | set value =>
    obtain ⟨lexesPlaceholder, isBound⟩ := lexesValue value rfl
    have writes := writes_set lexes resolved (.term (.value placeholder)) lexesPlaceholder
      (by simp [Assigned.resolve, Term.resolve, isBound]; rfl)
    exact forall₂_writes_single writes (by rintro (_ | _ | _ | _) <;> rfl) clause
  | increment value =>
    obtain ⟨lexesPlaceholder, isBound⟩ := lexesValue value rfl
    have lexesPlus : Lexes " + " [.plus] := by decide
    have writes := writes_arithmetic lexes resolved lexesPlaceholder
      (.plus (.path written) (.value placeholder))
      (by simp [Assigned.resolve, Term.resolve, resolved, isBound]; rfl)
      lexesPlus ⟨' ', "+ ".toList, rfl, rfl⟩ ⟨' ', " +".toList, rfl, rfl⟩
      (by simp [Assigned.tokens, Term.tokens])
    exact forall₂_writes_single writes (by rintro (_ | _ | _ | _) <;> rfl) clause
  | decrement value =>
    obtain ⟨lexesPlaceholder, isBound⟩ := lexesValue value rfl
    have lexesMinus : Lexes " - " [.minus] := by decide
    have writes := writes_arithmetic lexes resolved lexesPlaceholder
      (.minus (.path written) (.value placeholder))
      (by simp [Assigned.resolve, Term.resolve, resolved, isBound]; rfl)
      lexesMinus ⟨' ', "- ".toList, rfl, rfl⟩ ⟨' ', " -".toList, rfl, rfl⟩
      (by simp [Assigned.tokens, Term.tokens])
    exact forall₂_writes_single writes (by rintro (_ | _ | _ | _) <;> rfl) clause
  | setIfAbsent value =>
    obtain ⟨lexesPlaceholder, isBound⟩ := lexesValue value rfl
    have lexesName : Lexes "if_not_exists(" [.ifNotExists, .openParen] := by decide
    have writes := writes_call lexes resolved lexesPlaceholder
      (.term (.ifNotExists written (.value placeholder)))
      (by simp [Assigned.resolve, Term.resolve, resolved, isBound]; rfl)
      lexesName ⟨'(', "if_not_exists".toList, rfl, rfl⟩ (by decide : _ = " = if_not_exists(")
      (by simp [Assigned.tokens, Term.tokens])
    exact forall₂_writes_single writes (by rintro (_ | _ | _ | _) <;> rfl) clause
  | listAppend value =>
    obtain ⟨lexesPlaceholder, isBound⟩ := lexesValue value rfl
    have lexesName : Lexes "list_append(" [.listAppend, .openParen] := by decide
    have writes := writes_call lexes resolved lexesPlaceholder
      (.term (.listAppend (.path written) (.value placeholder)))
      (by simp [Assigned.resolve, Term.resolve, resolved, isBound]; rfl)
      lexesName ⟨'(', "list_append".toList, rfl, rfl⟩ (by decide : _ = " = list_append(")
      (by simp [Assigned.tokens, Term.tokens])
    exact forall₂_writes_single writes (by rintro (_ | _ | _ | _) <;> rfl) clause
  | add value =>
    obtain ⟨lexesPlaceholder, isBound⟩ := lexesValue value rfl
    exact forall₂_writes_single (writes_add lexes resolved lexesPlaceholder isBound)
      (by rintro (_ | _ | _ | _) <;> rfl) clause
  | remove =>
    exact forall₂_writes_single (writes_remove lexes resolved) (by rintro (_ | _ | _ | _) <;> rfl)
      clause
  | removeAt indexes => exact forall₂_writes_removeAt lexes resolved placeholder indexes clause
  | delete value =>
    obtain ⟨lexesPlaceholder, isBound⟩ := lexesValue value rfl
    exact forall₂_writes_single (writes_delete lexes resolved lexesPlaceholder isBound)
      (by rintro (_ | _ | _ | _) <;> rfl) clause

/-- An action binds its path, then its value if it uses one, and its items follow. -/
theorem exists_items_of_apply {path : String} {action : UpdateAction}
    {before after : UpdateClauses} (run : Succeeds (apply path action) before () after) :
    ∃ placeholder middle bindings,
      Succeeds (ExpressionKind.update.bindPath path) before.bindings
        (ExpressionKind.update.referenceText path) middle ∧
      (∀ value ∈ operand? action,
        Succeeds (ExpressionKind.update.bindValue path "" value) middle placeholder bindings) ∧
      (operand? action = none → bindings = middle) ∧
      after = ({ before with bindings } : UpdateClauses).append
        (items (ExpressionKind.update.referenceText path) placeholder action) := by
  obtain ⟨reference, _, runPath, runRest⟩ := succeeds_bind.1 run
  obtain ⟨middle, bound, rfl⟩ := (actsOn_bind _).succeeds_iff.1 runPath
  obtain ⟨-, rfl, -⟩ := ExpressionKind.succeeds_bindPath bound
  cases operand_eq : operand? action with
  | none =>
    rw [operand_eq] at runRest
    obtain ⟨placeholder, _, runNothing, runAppend⟩ := succeeds_bind.1 runRest
    obtain ⟨rfl, rfl⟩ := succeeds_pure.1 runNothing
    exact ⟨"", middle, middle, bound, by simp, fun _ => rfl, succeeds_modify.1 runAppend⟩
  | some value =>
    rw [operand_eq] at runRest
    obtain ⟨placeholder, _, runValue, runAppend⟩ := succeeds_bind.1 runRest
    obtain ⟨bindings, boundValue, rfl⟩ := (actsOn_bind _).succeeds_iff.1 runValue
    refine ⟨placeholder, middle, bindings, bound, ?_, by simp, succeeds_modify.1 runAppend⟩
    rintro _ ⟨⟩
    exact boundValue

theorem succeeds_apply {path : String} {action : UpdateAction} (plain : Path.IsPlain path)
    {before after : UpdateClauses} {changes : List ItemChange} (expresses : before.Expresses changes)
    (run : Succeeds (apply path action) before () after) :
    before.bindings.Within after.bindings ∧
      after.Expresses (changes ++ action.changes (Path.segments path)) := by
  obtain ⟨placeholder, middle, bindings, bound, boundValue, unchanged, rfl⟩ := exists_items_of_apply run
  obtain ⟨withinMiddle, -, areBound⟩ := ExpressionKind.succeeds_bindPath bound
  have within : middle.Within bindings := by
    cases operand_eq : operand? action with
    | none => exact unchanged operand_eq ▸ .refl _
    | some value => exact (ExpressionKind.succeeds_bindValue (boundValue value operand_eq)).1
  have lexesValue : ∀ value ∈ operand? action, Lexes placeholder [.value placeholder] ∧
      bindings.values.get? placeholder = some value := by
    intro value isOperand
    obtain ⟨-, placeholder_eq, isBound⟩ :=
      ExpressionKind.succeeds_bindValue (boundValue value isOperand)
    rw [placeholder_eq] at isBound ⊢
    exact ⟨ExpressionKind.lexes_valuePlaceholder plain (by decide), isBound⟩
  obtain ⟨written, lexes, resolved⟩ := ExpressionKind.exists_syntax_referenceText plain areBound
  refine ⟨withinMiddle.trans within, ?_⟩
  intro clause
  have old := (expresses clause).imp fun _ _ writes =>
    WritesChange.within writes (withinMiddle.trans within)
  have new := forall₂_writes_items lexes (PathSyntax.resolve_within within resolved) lexesValue clause
  rw [List.filter_append]
  have append_eq : (({ before with bindings } : UpdateClauses).append
      (items (ExpressionKind.update.referenceText path) placeholder action)).itemsOf clause =
      before.itemsOf clause ++
        (items (ExpressionKind.update.referenceText path) placeholder action).itemsOf clause := by
    cases clause <;> rfl
  rw [append_eq]
  exact List.rel_append old new

theorem succeeds_applyAll {actions : List (String × UpdateAction)}
    (plain : ∀ action ∈ actions, Path.IsPlain action.1) {before after : UpdateClauses}
    {changes : List ItemChange} (expresses : before.Expresses changes)
    (run : Succeeds (applyAll actions) before () after) :
    before.bindings.Within after.bindings ∧ after.Expresses (changes ++ actionChanges actions) := by
  induction actions generalizing before changes with
  | nil =>
    obtain ⟨-, rfl⟩ := succeeds_pure.1 run
    exact ⟨.refl _, by simpa [actionChanges] using expresses⟩
  | cons action actions inductionHypothesis =>
    obtain ⟨⟨⟩, middle, runFirst, runOthers⟩ := succeeds_bind.1 run
    obtain ⟨withinFirst, expressesFirst⟩ := succeeds_apply (plain action (by simp)) expresses runFirst
    obtain ⟨withinOthers, expressesAll⟩ :=
      inductionHypothesis (fun other isMember => plain other (by simp [isMember])) expressesFirst
        runOthers
    exact ⟨withinFirst.trans withinOthers, by simpa [actionChanges] using expressesAll⟩

theorem expresses_blank : UpdateClauses.Expresses {} [] := by
  intro clause
  cases clause <;> exact .nil

end Updating

/-- The clauses of a body are written for the changes of its actions. -/
theorem UpdateBody.clauses_expresses {body : UpdateBody} {clauses : UpdateClauses}
    (areClauses : body.clauses = .ok clauses)
    (plain : ∀ entry ∈ body.actions, Path.IsPlain entry.1) :
    clauses.Expresses (actionChanges body.actions) := by
  unfold UpdateBody.clauses Updating.build at areClauses
  split at areClauses
  · cases areClauses
  · split at areClauses
    · next after run =>
      obtain rfl := Except.ok.inj areClauses
      have run : Succeeds (Updating.applyAll body.actions) {} () after := run
      exact (Updating.succeeds_applyAll plain Updating.expresses_blank run).2
    · cases areClauses

/-! ## The text of clauses -/

namespace Grammar

def Clause.keyword : Clause → String
  | .set => "SET"
  | .add => "ADD"
  | .remove => "REMOVE"
  | .delete => "DELETE"

theorem lexes_keyword (clause : Clause) : Lexes (clause.keyword ++ " ") [clause.token] := by
  cases clause <;> decide

/-- Items that are written for changes are read as these changes. -/
theorem exists_syntax_of_writes {bindings : Bindings} {clause : Clause} {texts : List String}
    {changes : List ItemChange} (writes : List.Forall₂ (WritesChange bindings clause) texts changes) :
    ∃ written : List ChangeSyntax, List.Forall₂ (fun text w => Lexes text w.tokens) texts written ∧
      (∀ w ∈ written, w.clause = clause) ∧ written.mapM (Change.resolve bindings) = some changes := by
  induction writes with
  | nil => exact ⟨[], .nil, by simp, rfl⟩
  | cons writes _ inductionHypothesis =>
    obtain ⟨first, sameClause, lexes, resolved⟩ := writes
    obtain ⟨others, lexesOthers, sameClauses, areResolved⟩ := inductionHypothesis
    refine ⟨first :: others, .cons lexes lexesOthers, ?_, by simp [resolved, areResolved]⟩
    intro w isMember
    rcases List.mem_cons.1 isMember with rfl | isMember
    · exact sameClause
    · exact sameClauses w isMember

def groups (order : List Clause) (changes : List ItemChange) : List (Clause × List ItemChange) :=
  (order.map fun clause => (clause, changes.filter (·.clause = clause))).filter (·.2 ≠ [])

theorem flatMap_groups (order : List Clause) (changes : List ItemChange) :
    (groups order changes).flatMap Prod.snd =
      order.flatMap fun clause => changes.filter (·.clause = clause) := by
  induction order with
  | nil => rfl
  | cons clause order inductionHypothesis =>
    by_cases noChanges : changes.filter (·.clause = clause) = []
    · simpa [groups, noChanges] using inductionHypothesis
    · simpa [groups, noChanges] using inductionHypothesis

def StandsFor (bindings : Bindings) (written : ClauseSyntax) (group : Clause × List ItemChange) :
    Prop :=
  written.clause = group.1 ∧
    (written.first :: written.later).mapM (Change.resolve bindings) = some group.2

theorem mapM_flatMap_of_standsFor {bindings : Bindings} {written : List ClauseSyntax}
    {groups : List (Clause × List ItemChange)}
    (standFor : List.Forall₂ (StandsFor bindings) written groups) :
    (written.flatMap fun w => w.first :: w.later).mapM (Change.resolve bindings) =
      some (groups.flatMap Prod.snd) := by
  induction standFor with
  | nil => rfl
  | cons standsFor _ inductionHypothesis =>
    rw [List.flatMap_cons, List.mapM_append, standsFor.2, inductionHypothesis]
    rfl

/-- A clause without items has no changes, and one with items is written for them. -/
theorem exists_syntax_of_clause {clauses : UpdateClauses} {changes : List ItemChange}
    (expresses : clauses.Expresses changes) (clause : Clause) :
    (clauses.itemsOf clause = [] ∧ changes.filter (·.clause = clause) = []) ∨
      ∃ (text : String) (written : ClauseSyntax),
        UpdateClauses.clauseText clause.keyword (clauses.itemsOf clause) = [text] ∧
        changes.filter (·.clause = clause) ≠ [] ∧
        Lexes text (clauseTokens written.clause (written.first :: written.later)) ∧
        StandsFor clauses.bindings written (clause, changes.filter (·.clause = clause)) := by
  obtain ⟨written, lexes, sameClauses, resolved⟩ := exists_syntax_of_writes (expresses clause)
  cases items_eq : clauses.itemsOf clause with
  | nil =>
    rw [items_eq, List.forall₂_nil_left_iff] at lexes
    subst lexes
    exact .inl ⟨rfl, (Option.some.inj resolved).symm⟩
  | cons item items =>
    rw [items_eq] at lexes
    cases written with
    | nil => cases lexes
    | cons first later =>
      obtain ⟨lexesFirst, lexesLater⟩ := List.forall₂_cons.1 lexes
      have lexesComma : Lexes ", " [.comma] := by decide
      have lexesItems := lexesComma.intercalate Change.tokens ⟨',', [' '], rfl, rfl⟩
        ⟨' ', [','], rfl, rfl⟩ lexesFirst lexesLater
      have lexesClause := (lexes_keyword clause).closed lexesItems
        (.prepend ⟨' ', [], rfl, rfl⟩ clause.keyword)
      have someChange : changes.filter (·.clause = clause) ≠ [] := by
        intro noChanges
        rw [noChanges] at resolved
        simp [List.mapM_cons, Option.bind_eq_some_iff] at resolved
      exact .inr ⟨_, ⟨clause, first, later, sameClauses⟩, rfl, someChange, lexesClause, rfl, resolved⟩

/-- The clauses in some order are read one by one; those without items leave no trace. -/
theorem exists_syntax_of_expresses {clauses : UpdateClauses} {changes : List ItemChange}
    (expresses : clauses.Expresses changes) (order : List Clause) :
    ∃ written : List ClauseSyntax,
      List.Forall₂ (fun text w => Lexes text (clauseTokens w.clause (w.first :: w.later)))
        (order.flatMap fun clause => UpdateClauses.clauseText clause.keyword (clauses.itemsOf clause))
        written ∧
      (written.map (·.clause)).Sublist order ∧
      List.Forall₂ (StandsFor clauses.bindings) written (groups order changes) := by
  induction order with
  | nil => exact ⟨[], .nil, .slnil, .nil⟩
  | cons clause order inductionHypothesis =>
    obtain ⟨others, lexesOthers, sublist, standFor⟩ := inductionHypothesis
    rcases exists_syntax_of_clause expresses clause with
      ⟨noItems, noChanges⟩ | ⟨text, written, text_eq, someChange, lexes, standsFor⟩
    · refine ⟨others, ?_, sublist.cons _, ?_⟩
      · simpa [UpdateClauses.clauseText, noItems] using lexesOthers
      · simpa [groups, noChanges] using standFor
    · have groups_eq : groups (clause :: order) changes =
          (clause, changes.filter (·.clause = clause)) :: groups order changes := by
        simp [groups, someChange]
      refine ⟨written :: others, ?_, ?_, ?_⟩
      · rw [List.flatMap_cons, text_eq, List.singleton_append]
        exact .cons lexes lexesOthers
      · rw [List.map_cons, standsFor.1]
        exact sublist.cons_cons _
      · rw [groups_eq]
        exact .cons standsFor standFor

end Grammar

namespace UpdateClauses

theorem text_eq (clauses : UpdateClauses) : clauses.text =
    " ".intercalate (Clause.all.flatMap fun clause =>
      clauseText clause.keyword (clauses.itemsOf clause)) := by
  simp [UpdateClauses.text, Clause.all, Clause.keyword, itemsOf]

/-- The text of clauses is made of written clauses that stand for the changes, by clause. -/
theorem exists_syntax_of_compile {clauses : UpdateClauses} {changes : List ItemChange}
    (expresses : clauses.Expresses changes) {compiled : CompiledExpression}
    (compiles : clauses.compile = .ok compiled) :
    ∃ written : List ClauseSyntax, written ≠ [] ∧ (written.map (·.clause)).Nodup ∧
      Lexes compiled.text (clausesTokens written) ∧
      List.Forall₂ (StandsFor compiled.bindings) written (groups Clause.all changes) := by
  unfold compile at compiles
  split at compiles
  · cases compiles
  · next nonempty =>
    obtain rfl := Except.ok.inj compiles
    obtain ⟨written, lexes, sublist, standFor⟩ := exists_syntax_of_expresses expresses Clause.all
    have lexesText : written ≠ [] ∧ Lexes clauses.text (clausesTokens written) := by
      rw [text_eq]
      generalize texts_eq : (Clause.all.flatMap fun clause =>
        clauseText clause.keyword (clauses.itemsOf clause)) = texts at lexes
      cases lexes with
      | nil =>
        simp [Clause.all, clauseText, itemsOf] at texts_eq
        simp [isEmpty, texts_eq] at nonempty
      | cons lexesFirst lexesOthers =>
        have lexesBlank : Lexes " " [] := by decide
        have lexesAll := lexesBlank.intercalate
          (fun w : ClauseSyntax => clauseTokens w.clause (w.first :: w.later))
          ⟨' ', [], rfl, rfl⟩ ⟨' ', [], rfl, rfl⟩ lexesFirst lexesOthers
        exact ⟨by simp, by simpa [clausesTokens] using lexesAll⟩
    exact ⟨written, lexesText.1, sublist.nodup (by decide), lexesText.2, standFor⟩

/-- The text of clauses is read as the changes that they were written for. -/
theorem readUpdate_of_compile {clauses : UpdateClauses} {changes : List ItemChange}
    (expresses : clauses.Expresses changes) {compiled : CompiledExpression}
    (compiles : clauses.compile = .ok compiled) :
    readUpdate compiled.text compiled.bindings = some (byClause changes) := by
  obtain ⟨written, nonempty, nodup, lexes, standFor⟩ := exists_syntax_of_compile expresses compiles
  have lexed : tokens? compiled.text = some (clausesTokens written) := lexes
  simp only [readUpdate, lexed, parseUpdate_tokens written nonempty nodup, Option.bind_eq_bind,
    Option.bind_some, mapM_flatMap_of_standsFor standFor, flatMap_groups, byClause]

end UpdateClauses

end SingleTable
