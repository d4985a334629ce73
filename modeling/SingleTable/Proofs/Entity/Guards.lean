import SingleTable.Proofs.Condition.Compilation
import SingleTable.Proofs.Entity.Item
import SingleTable.Proofs.Entity.Requests
import SingleTable.Proofs.Service.Evaluation
import SingleTable.Proofs.Update.Targets

/-!
# Writes that need a free key

A create and the claim of a unique value are puts that no item may stand in the way of.  What
the caller asks for besides is joined by `AND`, so it cannot weaken this, as long as its paths
are plain: a condition that is compiled is met where it is accepted (`Service.meets_compiled`),
and two joined conditions are accepted where both are (`Service.accepts_join`).
-/

namespace SingleTable

open Grammar

/-! ## Joined conditions -/

namespace Condition

theorem meanings_append (first second : List Condition) :
    meanings (first ++ second) = meanings first ++ meanings second := by
  induction first with
  | nil => rfl
  | cons condition first inductionHypothesis => simp [meanings, inductionHypothesis]

theorem mem_allPaths_append {first second : List Condition} {path : String} :
    path ∈ allPaths (first ++ second) ↔ path ∈ allPaths first ∨ path ∈ allPaths second := by
  induction first with
  | nil => simp [allPaths]
  | cons condition first inductionHypothesis => simp [allPaths, inductionHypothesis, or_assoc]

/-- A conjunction that is extended means the same as one that is made of two parts. -/
theorem meaning_and (condition other : Condition) :
    (condition.and other).meaning = Connective.and.join condition.meaning other.meaning := by
  cases condition with
  | all conditions => simp [and, meaning, meanings_append, meanings]
  | test path test | any conditions | not condition => rfl

theorem mem_paths_and {condition other : Condition} {path : String} :
    path ∈ (condition.and other).paths ↔ path ∈ condition.paths ∨ path ∈ other.paths := by
  cases condition <;> simp [and, paths, allPaths, mem_allPaths_append]

theorem meaning_andOption (condition : Condition) (other : Option Condition) :
    (condition.andOption other).meaning =
      Connective.and.join condition.meaning (other.bind meaning) := by
  cases other with
  | none => cases meaning_eq : condition.meaning <;> simp [andOption, meaning_eq, Connective.join]
  | some other => exact meaning_and condition other

theorem plain_andOption {condition : Condition} {other : Option Condition}
    (plain : ∀ path ∈ condition.paths, Path.IsPlain path)
    (plainOther : ∀ condition ∈ other, ∀ path ∈ condition.paths, Path.IsPlain path) :
    ∀ path ∈ (condition.andOption other).paths, Path.IsPlain path := by
  cases other with
  | none => exact plain
  | some other =>
    intro path isPath
    rcases mem_paths_and.1 isPath with isPath | isPath
    · exact plain path isPath
    · exact plainOther other rfl path isPath

end Condition

namespace Service

variable (service : Service) (item : Item)

/-- Whether an item meets what a condition means; one that tests nothing is met by every item. -/
def accepts (meaning : Option (Formula (Predicate (List PathSegment) Value))) : Bool :=
  meaning.all (service.holds item)

/-- Two conditions joined by `AND` are met where both are, even if one of them tests nothing. -/
theorem accepts_join (left right : Option (Formula (Predicate (List PathSegment) Value))) :
    service.accepts item (Connective.and.join left right) =
      (service.accepts item left && service.accepts item right) := by
  cases left <;> cases right <;> simp [accepts, Connective.join, Connective.apply, holds]

end Service

theorem Grammar.readCondition_within {text : String} {bindings larger : Bindings}
    (within : bindings.Within larger) {meaning : Formula (Predicate (List PathSegment) Value)}
    (read : readCondition text bindings = some meaning) :
    readCondition text larger = some meaning := by
  simp only [readCondition, Option.bind_eq_bind, Option.bind_eq_some_iff] at read ⊢
  obtain ⟨tokens, lexed, written, parsed, resolved⟩ := read
  exact ⟨tokens, lexed, written, parsed, Formula.resolve_within within resolved⟩

/-- What is drafted, compiled and taken into a request is met where its meaning is. -/
theorem Service.meets_expressed (service : Service) (item : Item) {draft : Draft}
    {meaning : Option (Formula (Predicate (List PathSegment) Value))}
    (expresses : draft.Expresses meaning) {bindings : Bindings}
    (within : ∀ compiled ∈ draft.compiled?, compiled.bindings.Within bindings) :
    service.meets item (draft.compiled?.map (·.text)) bindings = service.accepts item meaning := by
  cases meaning with
  | some meaning =>
    obtain ⟨compiled, compiled_eq, read⟩ := expresses.read
    simp [compiled_eq, meets, accepts, readCondition_within (within compiled compiled_eq) read]
  | none =>
    have isEmpty := expresses.isEmpty_eq
    simp [Draft.compiled?, isEmpty, meets, accepts]

/-- A condition that is compiled and taken into a request is met where its meaning is. -/
theorem Service.meets_compiled (service : Service) (item : Item) {kind : ExpressionKind}
    {condition : Condition} (plain : ∀ path ∈ condition.paths, Path.IsPlain path)
    {expression : Option CompiledExpression} (compiles : condition.compile kind = .ok expression)
    {bindings : Bindings} (within : ∀ compiled ∈ expression, compiled.bindings.Within bindings) :
    service.meets item (expression.map (·.text)) bindings =
      service.accepts item condition.meaning := by
  obtain ⟨draft, drafted, rfl⟩ := Condition.compile_eq_ok compiles
  exact service.meets_expressed item (Condition.expresses_draft plain drafted) within

/-! ## Vacancy -/

/-- A request whose condition is met only where there is no item with a partition key. -/
def PutRequest.NeedsVacancy (request : PutRequest) (entity : Entity) : Prop :=
  ∀ (service : Service) (item : Item),
    service.meets item request.condition request.bindings = true →
      item.contains entity.table.partitionKey = false

namespace Entity

variable {entity : Entity}

theorem meets_writeCondition {condition : Condition}
    (plain : ∀ path ∈ condition.paths, Path.IsPlain path) {text : Option String} {bindings : Bindings}
    (written : writeCondition (some condition) = .ok (text, bindings)) (service : Service)
    (item : Item) : service.meets item text bindings = service.accepts item condition.meaning := by
  obtain ⟨-, each⟩ := (takes_of_writeCondition written).each
  obtain ⟨expression, compiles, rfl, within⟩ := (List.forall₂_cons.1 each).1
  exact service.meets_compiled item plain compiles within

/-- What the absence of a key means for one service is the absence of each of its attributes. -/
theorem accepts_keyAbsent (service : Service) (item : Item) :
    service.accepts item entity.keyAbsent.meaning =
      entity.table.keyAttributes.all fun name =>
        service.accepts item (Condition.absent name).meaning := by
  unfold keyAbsent Table.keyAttributes
  cases entity.table.sortKey with
  | none => simp
  | some sort => simp [Condition.meaning_and, Service.accepts_join]

theorem paths_keyAbsent (entity : Entity) : entity.keyAbsent.paths = entity.table.keyAttributes := by
  unfold keyAbsent Table.keyAttributes
  cases entity.table.sortKey <;> rfl

/-- The attribute of a word is looked up by name. -/
theorem accepts_absent {name : String} (isWord : IsWord name) (service : Service) (item : Item) :
    service.accepts item (Condition.absent name).meaning = !item.contains name := by
  simp [Condition.absent, Condition.meaning, AttributeTest.predicate?, Path.segments_of_isWord isWord,
    Service.accepts, Service.holds]

section Vacancy

variable (isWord : ∀ name ∈ entity.table.keyAttributes, IsWord name) {other : Option Condition}
include isWord

/-- A condition that starts with the absence of the key is not met by an item with a key. -/
theorem vacant_of_meets (plain : ∀ condition ∈ other, ∀ path ∈ condition.paths, Path.IsPlain path)
    {text : Option String} {bindings : Bindings}
    (written : writeCondition (some (entity.keyAbsent.andOption other)) = .ok (text, bindings))
    {service : Service} {item : Item} (meets : service.meets item text bindings = true) :
    item.contains entity.table.partitionKey = false := by
  have plainKey : ∀ path ∈ entity.keyAbsent.paths, Path.IsPlain path := by
    rw [paths_keyAbsent]
    exact fun name isKey => Path.isPlain_of_isWord (isWord name isKey)
  have isKey : entity.table.partitionKey ∈ entity.table.keyAttributes := List.mem_cons_self
  rw [meets_writeCondition (Condition.plain_andOption plainKey plain) written,
    Condition.meaning_andOption, Service.accepts_join, Bool.and_eq_true, accepts_keyAbsent,
    List.all_eq_true] at meets
  have isAbsent := meets.1 _ isKey
  rw [accepts_absent (isWord _ isKey)] at isAbsent
  simpa using isAbsent

/-- A record is claimed by a put that nothing may stand in the way of. -/
theorem claim_eq_ok {record : Item} {operation : WriteOperation}
    (claimed : entity.claim record = .ok operation) :
    ∃ request, operation = .put request ∧ request.item = record ∧ request.NeedsVacancy entity := by
  obtain ⟨request, rfl, item_eq, written⟩ := put_of_claim claimed
  have plain : ∀ condition ∈ (none : Option Condition), ∀ path ∈ condition.paths, Path.IsPlain path := by
    simp
  exact ⟨request, rfl, item_eq, fun service item meets => vacant_of_meets isWord plain written meets⟩

end Vacancy

end Entity

end SingleTable
