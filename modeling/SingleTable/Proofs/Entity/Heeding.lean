import SingleTable.Proofs.Condition.Truth
import SingleTable.Proofs.Entity.Protection

/-!
# Requests and the conditions of callers

A request that is made with a condition of the caller is met where its guard is and where the
condition is true, parts that test nothing left out (`Entity.Ask.heeds_condition`).  If nothing is
lost by that, the condition is heeded; a condition without empty lists never loses anything.  But a
part that is never met may be left out as well: a disjunction of no conditions is never true, and yet
a delete on this condition is made without any.
-/

namespace SingleTable

open Grammar

/-! ## Conjunctions -/

namespace Condition

variable {judge : String → AttributeTest → Bool}

theorem allTests_append (first second : List Condition) :
    allTests (first ++ second) = allTests first ++ allTests second := by
  induction first with
  | nil => rfl
  | cons condition first inductionHypothesis => simp [allTests, inductionHypothesis]

theorem truths_append (first second : List Condition) :
    truths judge (first ++ second) = truths judge first ++ truths judge second := by
  induction first with
  | nil => rfl
  | cons condition first inductionHypothesis => simp [truths, inductionHypothesis]

theorem tests_and (condition other : Condition) :
    (condition.and other).tests = condition.tests ++ other.tests := by
  cases condition <;> simp [and, tests, allTests, allTests_append]

/-- A conjunction is true where both parts are. -/
theorem getD_truth?_and (condition other : Condition) :
    ((condition.and other).truth? judge).getD true =
      ((condition.truth? judge).getD true && (other.truth? judge).getD true) := by
  have joined (conditions : List Condition) : ((Condition.all conditions).truth? judge).getD true =
      ((truths judge conditions).map (·.getD true)).all id := by
    rw [truth?]
    exact Connective.and.getD_combine? _
  cases condition with
  | all conditions => simp [and, joined, truths_append, truths]
  | test path attributeTest | any conditions | not condition => simp [and, joined, truths]

end Condition

/-! ## Guards -/

namespace Guard

variable {entity : Entity}

theorem isFilled_condition (guard : Guard) : (guard.condition entity).isFilled = true := by
  cases guard with
  | vacant =>
    simp only [condition, Entity.keyAbsent]
    split <;> rfl
  | occupied | own => rfl

/-- What is left of a guard is the guard. -/
theorem getD_truth?_condition (guard : Guard) (judge : String → AttributeTest → Bool) :
    ((guard.condition entity).truth? judge).getD true = (guard.condition entity).isTrue judge :=
  (Condition.isTrue_eq_getD (Condition.losesNothing_of_isFilled true guard.isFilled_condition)).symm

end Guard

/-! ## Compiled conditions -/

/-- A condition that is compiled and taken into a request is met where it is true, parts that test
nothing left out; and there is no expression if it tests nothing. -/
theorem Service.meets_truth {kind : ExpressionKind} (notProjection : kind ≠ .projection)
    {condition : Condition} (plain : ∀ path ∈ condition.paths, Path.IsPlain path)
    {expression : Option CompiledExpression} (compiles : condition.compile kind = .ok expression)
    {bindings : Bindings} (within : ∀ compiled ∈ expression, compiled.bindings.Within bindings) :
    (∀ (service : Service) (item : Item), service.meets item (expression.map (·.text)) bindings =
      (condition.truth? (service.judges item)).getD true) ∧
    (expression = none ↔ condition.tests = []) := by
  obtain ⟨draft, drafted, rfl⟩ := Condition.compile_eq_ok compiles
  obtain ⟨count, -⟩ := (Condition.bindings_draft_eq_ok_iff notProjection condition draft.bindings).1
    (map_eq_ok.2 ⟨draft, drafted, rfl⟩)
  have expresses := Condition.expresses_draft plain drafted
  constructor
  · intro service item
    rw [service.meets_expressed item expresses within, ← service.map_holds_meaning item count, accepts]
    cases condition.meaning <;> rfl
  · -- whether it means anything does not depend on the item, so any item will do
    have meaning_eq_none_iff : condition.meaning = none ↔ condition.tests = [] := by
      rw [← Condition.truth?_eq_none_iff, ← Service.map_holds_meaning default ∅ count,
        Option.map_eq_none_iff]
    rw [← meaning_eq_none_iff, Draft.compiled?, expresses.isEmpty_eq]
    cases condition.meaning <;> simp

/-! ## Conditions of callers -/

namespace Entity.Ask

variable {entity : Entity}

/-- The condition of a request that is made with a condition of the caller. -/
theorem exists_joined {ask : Ask} {condition : Condition} (conditional : ask.condition = some condition)
    (plain : ∀ path ∈ ask.conditionPaths, Path.IsPlain path)
    (plainGuard : ∀ guard ∈ ask.guard?, ∀ name ∈ guard.names entity, Path.IsPlain name) :
    ∃ whole, ask.joined entity = some whole ∧ (∀ path ∈ whole.paths, Path.IsPlain path) ∧
      (∀ judge, (whole.truth? judge).getD true =
        (ask.guard?.all (fun guard => (guard.condition entity).isTrue judge) &&
          (condition.truth? judge).getD true)) ∧
      (whole.tests = [] ↔ ask.guard? = none ∧ condition.tests = []) := by
  have plainCondition : ∀ path ∈ condition.paths, Path.IsPlain path :=
    plain_condition plain condition conditional
  cases guarded : ask.guard? with
  | none =>
    refine ⟨condition, ?_, plainCondition, fun judge => ?_, ?_⟩
    · rw [joined, guarded]
      exact conditional
    · simp
    · simp
  | some guard =>
    have plainNames := plainGuard guard guarded
    rw [← guard.paths_condition] at plainNames
    refine ⟨(guard.condition entity).and condition, ?_, ?_, fun judge => ?_, ?_⟩
    · rw [joined, guarded, conditional]
      rfl
    · intro path isPath
      rcases Condition.mem_paths_and.1 isPath with isPath | isPath
      · exact plainNames path isPath
      · exact plainCondition path isPath
    · rw [Condition.getD_truth?_and, guard.getD_truth?_condition, Option.all_some]
    · have isFilled : (guard.condition entity).isFilled = true := guard.isFilled_condition
      simp [Condition.tests_and, Condition.tests_ne_nil_of_isFilled isFilled]

/-- A request is met where its guard is and where the condition of the caller is true, parts that
test nothing left out.  So what it is met by makes the condition true, if nothing is lost by that; it
is made without any condition if and only if there is neither a guard nor a test, and then the
condition is true of all items or of none. -/
theorem heeds_condition {ask : Ask} {condition : Condition} (conditional : ask.condition = some condition)
    (plain : ∀ path ∈ ask.conditionPaths, Path.IsPlain path)
    (plainGuard : ∀ guard ∈ ask.guard?, ∀ name ∈ guard.names entity, Path.IsPlain name)
    {request : Request} {others : List Request} (asked : ask.requests entity = .ok (request :: others)) :
    (∀ (service : Service) (item : Item), service.meets item request.condition request.bindings =
      (ask.guard?.all (fun guard => (guard.condition entity).isTrue (service.judges item)) &&
        (condition.truth? (service.judges item)).getD true)) ∧
    (condition.losesNothing true = true → ∀ (service : Service) (item : Item),
      service.meets item request.condition request.bindings = true →
        condition.isTrue (service.judges item) = true) ∧
    (request.condition = none ↔ ask.guard? = none ∧ condition.tests = []) ∧
    (condition.tests = [] → ∀ judge, condition.isTrue judge = condition.losesNothing true) := by
  obtain ⟨whole, joined_eq, plainWhole, truth_eq, tests_eq_nil_iff⟩ :=
    exists_joined conditional plain plainGuard
  obtain ⟨kind, notProjection, expression, compiles, text_eq, within⟩ := compile_of_requests asked
  rw [joined_eq] at compiles
  obtain ⟨meets_eq, expression_eq_none_iff⟩ :=
    Service.meets_truth notProjection plainWhole compiles within
  have accepted (service : Service) (item : Item) :
      service.meets item request.condition request.bindings =
        (ask.guard?.all (fun guard => (guard.condition entity).isTrue (service.judges item)) &&
          (condition.truth? (service.judges item)).getD true) := by
    rw [text_eq, meets_eq, truth_eq]
  refine ⟨accepted, ?_, ?_, ?_⟩
  · intro lossless service item meets
    rw [accepted, Bool.and_eq_true] at meets
    rw [Condition.isTrue_eq_getD lossless]
    exact meets.2
  · rw [text_eq, Option.map_eq_none_iff, expression_eq_none_iff, tests_eq_nil_iff]
  · intro nothing judge
    rw [Condition.losesNothing_of_tests_eq_nil nothing, beq_true]

end Entity.Ask

/-! ## A delete on a condition that is never met -/

def deleteUserOnNothing : Entity.Ask :=
  .delete (.single "id" (.string "1")) { condition := some (.any []) } none

/-- The condition is never true, but every item meets the request. -/
theorem meets_deleteUserOnNothing :
    ∃ request, deleteUserOnNothing.requests plainUserEntity = .ok [request] ∧
      request.condition = none ∧
      (∀ (service : Service) (item : Item),
        service.meets item request.condition request.bindings = true) ∧
      ∀ judge, (Condition.any []).isTrue judge = false := by
  have runs : (deleteUserOnNothing.requests plainUserEntity).toOption.map List.length = some 1 := by
    decide +kernel
  cases asked : deleteUserOnNothing.requests plainUserEntity with
  | error error => simp [asked, Except.toOption] at runs
  | ok requests =>
    rw [asked] at runs
    obtain ⟨request, rfl⟩ := List.length_eq_one_iff.1 (Option.some.inj runs)
    have plain : ∀ path ∈ deleteUserOnNothing.conditionPaths, Path.IsPlain path :=
      Path.isPlain_of_spelled [] rfl (by simp)
    have conditional : deleteUserOnNothing.condition = some (.any []) := rfl
    have unguarded : deleteUserOnNothing.guard? = none := rfl
    obtain ⟨meets_eq, -, unconditional, constant⟩ :=
      Entity.Ask.heeds_condition conditional plain (by simp [unguarded]) asked
    refine ⟨request, rfl, unconditional.2 ⟨unguarded, rfl⟩, fun service item => ?_, constant rfl⟩
    rw [meets_eq]
    rfl

end SingleTable
