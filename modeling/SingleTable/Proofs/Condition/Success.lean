import SingleTable.Proofs.Condition.Demands

/-!
# When a condition is drafted

Only the tests of a condition make demands of the placeholders: joining two drafts asks once more for
what they bind.  So a condition is drafted unless a test has the wrong number of values or two of its
tests demand different things of one placeholder, and its bindings are what the tests demand
(`Condition.draft_outcome`).
-/

namespace SingleTable

/-! ## Joined drafts -/

/-- Take over what bindings bind entry by entry: the names first, but otherwise in any order. -/
def Binding.TakesOver (take : Binding Unit) (bindings : Bindings) : Prop :=
  ∃ (names : List (String × String)) (values : List (String × Value)),
    names.Perm bindings.names.entries ∧ values.Perm bindings.values.entries ∧ take = (do
      names.forM fun (placeholder, requested) => name placeholder requested
      values.forM fun (placeholder, requested) => value placeholder requested)

theorem Binding.takesOver_all (bindings : Bindings) : (all bindings).TakesOver bindings :=
  ⟨_, _, .refl _, .refl _, rfl⟩

theorem Binding.TakesOver.demands {take : Binding Unit} {bindings : Bindings}
    (takes : take.TakesOver bindings) : take.Demands () bindings.demands := by
  obtain ⟨names, values, sameNames, sameValues, rfl⟩ := takes
  exact demands_entries sameNames sameValues

/-- A draft binds what is demanded, and it has a text unless nothing is demanded. -/
structure Draft.Fulfils (draft : Draft) (kind : ExpressionKind) (asked : List Demand) : Prop where
  kind_eq : draft.kind = kind
  gains : Bindings.Gains {} asked draft.bindings
  nothing : draft.isEmpty = true → asked = []

namespace Drafting

def mergeVia (take : Binding Unit) (other : Draft) (connective : Connective) : Drafting Unit := do
  if other.isEmpty then
    return
  bind take
  modify fun draft =>
    draft.withText
      (if draft.isEmpty then other.text
        else "(" ++ draft.text ++ ") " ++ connective.text ++ " (" ++ other.text ++ ")")

def mergeManyVia (take : Nat → Bindings → Binding Unit) (connective : Connective) :
    Nat → List Draft → Drafting Unit
  | _, [] => pure ()
  | index, other :: rest => do
    mergeVia (take index other.bindings) other connective
    mergeManyVia take connective (index + 1) rest

theorem mergeMany_eq_mergeManyVia (connective : Connective) (others : List Draft) (index : Nat) :
    mergeMany others connective = mergeManyVia (fun _ => Binding.all) connective index others := by
  induction others generalizing index with
  | nil => rfl
  | cons other others inductionHypothesis =>
    exact congrArg (fun rest => do merge other connective; rest) (inductionHypothesis (index + 1))

variable {kind : ExpressionKind} {connective : Connective} {asked : List Demand}

/-- What is joined demands again what it binds, and if it is left out it binds nothing. -/
theorem demands_mergeVia {take : Binding Unit} {other : Draft}
    (takes : take.Demands () other.bindings.demands) (fulfils : other.Fulfils kind asked) :
    Demands (mergeVia take other connective) kind asked := by
  unfold mergeVia
  split
  · next isEmpty =>
    rw [fulfils.nothing isEmpty]
    exact demands_pure PUnit.unit
  · refine Demands.ending ?_ fun _ => demands_modify (fun _ => rfl) (fun _ => rfl)
    exact (demands_bind takes).congr fulfils.gains.mem_demands_iff

theorem isEmpty_mergeVia {take : Binding Unit} {other before after : Draft}
    (run : Succeeds (mergeVia take other connective) before () after) (isEmpty : after.isEmpty = true) :
    before.isEmpty = true ∧ other.isEmpty = true := by
  unfold mergeVia at run
  split at run
  · next isEmptyOther =>
    obtain ⟨-, rfl⟩ := succeeds_pure.1 run
    exact ⟨isEmpty, isEmptyOther⟩
  · next nonempty =>
    obtain ⟨⟨⟩, _, runBind, runText⟩ := succeeds_bind.1 run
    obtain ⟨bindings, -, rfl⟩ := (actsOn_bind _).succeeds_iff.1 runBind
    obtain rfl := succeeds_modify.1 runText
    split at isEmpty
    · exact absurd (by simpa [Draft.isEmpty, Draft.withText, Draft.text] using isEmpty) nonempty
    · simp [Draft.isEmpty, Draft.withText, Draft.text] at isEmpty

end Drafting

/-! ## Trees -/

namespace Condition

open Drafting

mutual

def tests : Condition → List (String × AttributeTest)
  | .test path attributeTest => [(path, attributeTest)]
  | .all conditions => allTests conditions
  | .any conditions => allTests conditions
  | .not condition => condition.tests

def allTests : List Condition → List (String × AttributeTest)
  | [] => []
  | condition :: conditions => condition.tests ++ allTests conditions

end

def demandsOf (kind : ExpressionKind) (tests : List (String × AttributeTest)) : List Demand :=
  tests.flatMap fun (path, attributeTest) => attributeTest.demands kind path

def demands (kind : ExpressionKind) (condition : Condition) : List Demand :=
  demandsOf kind condition.tests

mutual

/-- The draft of a condition if the computations that take over bindings are given: `take` says for
each place in the tree how the part there has its bindings taken over. -/
def draftVia (take : List Nat → Bindings → Binding Unit) (kind : ExpressionKind) :
    List Nat → Condition → Except Error Draft
  | _, .test path attributeTest => Drafting.build kind (draftTest path attributeTest)
  | place, .all conditions => do
    let parts ← draftAllVia take kind place 0 conditions
    Drafting.build kind (Drafting.mergeManyVia (fun index => take (index :: place)) .and 0 parts)
  | place, .any conditions => do
    let parts ← draftAllVia take kind place 0 conditions
    Drafting.build kind (Drafting.mergeManyVia (fun index => take (index :: place)) .or 0 parts)
  | place, .not condition => do
    let inner ← draftVia take kind (0 :: place) condition
    return (Drafting.negate.run.run inner).2

def draftAllVia (take : List Nat → Bindings → Binding Unit) (kind : ExpressionKind) :
    List Nat → Nat → List Condition → Except Error (List Draft)
  | _, _, [] => .ok []
  | place, index, condition :: rest => do
    let first ← draftVia take kind (index :: place) condition
    let others ← draftAllVia take kind place (index + 1) rest
    return first :: others

end

mutual

theorem draft_eq_draftVia (kind : ExpressionKind) : ∀ (place : List Nat) (condition : Condition),
    condition.draft kind = draftVia (fun _ => Binding.all) kind place condition
  | _, .test path attributeTest => by rw [draft, draftVia]
  | place, .all conditions => by
    rw [draft, draftVia, draftAll_eq_draftAllVia kind place 0 conditions]
    simp only [Drafting.mergeMany_eq_mergeManyVia _ _ 0]
  | place, .any conditions => by
    rw [draft, draftVia, draftAll_eq_draftAllVia kind place 0 conditions]
    simp only [Drafting.mergeMany_eq_mergeManyVia _ _ 0]
  | place, .not condition => by
    rw [draft, draftVia, draft_eq_draftVia kind (0 :: place) condition]

theorem draftAll_eq_draftAllVia (kind : ExpressionKind) :
    ∀ (place : List Nat) (index : Nat) (conditions : List Condition),
      draftAll kind conditions = draftAllVia (fun _ => Binding.all) kind place index conditions
  | _, _, [] => by rw [draftAll, draftAllVia]
  | place, index, condition :: rest => by
    rw [draftAll, draftAllVia, draft_eq_draftVia kind (index :: place) condition,
      draftAll_eq_draftAllVia kind place (index + 1) rest]

end

theorem demandsOf_append (kind : ExpressionKind) (first second : List (String × AttributeTest)) :
    demandsOf kind (first ++ second) = demandsOf kind first ++ demandsOf kind second :=
  List.flatMap_append

def AreFulfilled (kind : ExpressionKind) (parts : List Draft) (conditions : List Condition) : Prop :=
  List.Forall₂ (fun part condition => part.Fulfils kind (demandsOf kind condition.tests)) parts conditions

section Joins

variable {take : Nat → Bindings → Binding Unit}
  (takes : ∀ index bindings, (take index bindings).TakesOver bindings) {kind : ExpressionKind}
  {connective : Connective} {parts : List Draft} {conditions : List Condition}

theorem isEmpty_mergeManyVia {index : Nat} {before after : Draft}
    (run : Succeeds (mergeManyVia take connective index parts) before () after)
    (isEmpty : after.isEmpty = true) : before.isEmpty = true ∧ ∀ part ∈ parts, part.isEmpty = true := by
  induction parts generalizing index before with
  | nil =>
    obtain ⟨-, rfl⟩ := succeeds_pure.1 run
    exact ⟨isEmpty, by simp⟩
  | cons part parts inductionHypothesis =>
    obtain ⟨⟨⟩, state, runFirst, runOthers⟩ := succeeds_bind.1 run
    obtain ⟨isEmptyState, areEmpty⟩ := inductionHypothesis runOthers
    obtain ⟨isEmptyBefore, isEmptyPart⟩ := isEmpty_mergeVia runFirst isEmptyState
    exact ⟨isEmptyBefore, List.forall_mem_cons.2 ⟨isEmptyPart, areEmpty⟩⟩

theorem AreFulfilled.nothing (fulfilled : AreFulfilled kind parts conditions)
    (areEmpty : ∀ part ∈ parts, part.isEmpty = true) : demandsOf kind (allTests conditions) = [] := by
  induction fulfilled with
  | nil => rfl
  | cons fulfils _ inductionHypothesis =>
    obtain ⟨isEmpty, areEmpty⟩ := List.forall_mem_cons.1 areEmpty
    rw [allTests, demandsOf_append, fulfils.nothing isEmpty, inductionHypothesis areEmpty]
    rfl

include takes

theorem demands_mergeManyVia (fulfilled : AreFulfilled kind parts conditions) (index : Nat) :
    Drafting.Demands (mergeManyVia take connective index parts) kind
      (demandsOf kind (allTests conditions)) := by
  induction fulfilled generalizing index with
  | nil => exact demands_pure PUnit.unit
  | cons fulfils _ inductionHypothesis =>
    rw [allTests, demandsOf_append]
    exact (demands_mergeVia (takes index _).demands fulfils).andThen (inductionHypothesis (index + 1))

theorem fulfils_join (fulfilled : AreFulfilled kind parts conditions) {draft : Draft}
    (built : build kind (mergeManyVia take connective 0 parts) = .ok draft) :
    draft.Fulfils kind (demandsOf kind (allTests conditions)) := by
  have run := succeeds_of_build built
  obtain ⟨kind_eq, gains⟩ := (demands_mergeManyVia takes fulfilled 0).grants rfl run
  exact ⟨kind_eq, gains, fun isEmpty => fulfilled.nothing (isEmpty_mergeManyVia run isEmpty).2⟩

theorem exists_join (fulfilled : AreFulfilled kind parts conditions) {bindings : Bindings}
    (gains : Bindings.Gains {} (demandsOf kind (allTests conditions)) bindings) :
    ∃ draft, build kind (mergeManyVia take connective 0 parts) = .ok draft := by
  obtain ⟨⟨⟩, draft, run⟩ := (demands_mergeManyVia takes fulfilled 0).succeeds { kind } rfl gains
  exact ⟨draft, build_of_succeeds run⟩

end Joins

theorem fulfils_negate {kind : ExpressionKind} {draft : Draft} {asked : List Demand}
    (fulfils : draft.Fulfils kind asked) : (negate.run.run draft).2.Fulfils kind asked := by
  have negated : (negate.run.run draft).2 =
      if draft.isEmpty then draft else draft.withText ("NOT (" ++ draft.text ++ ")") := rfl
  rw [negated]
  split
  · exact fulfils
  · exact ⟨fulfils.kind_eq, fulfils.gains, by simp [Draft.isEmpty, Draft.withText, Draft.text]⟩

section Outcomes

variable {take : List Nat → Bindings → Binding Unit} {kind : ExpressionKind}

theorem fulfils_test (notProjection : kind ≠ .projection) {path : String}
    {attributeTest : AttributeTest} {draft : Draft}
    (built : build kind (draftTest path attributeTest) = .ok draft) :
    ¬ attributeTest.Miscounts ∧ draft.Fulfils kind (attributeTest.demands kind path) := by
  have run := succeeds_of_build built
  have counts : ¬ attributeTest.Miscounts := fun miscounts => not_succeeds_draftTest miscounts run
  obtain ⟨kind_eq, gains⟩ := (demands_draftTest notProjection path counts).grants rfl run
  exact ⟨counts, kind_eq, gains, by simp [isEmpty_of_draftTest run]⟩

mutual

/-- A draft binds what the tests of its condition demand, none of which has the wrong number of
values. -/
theorem fulfils_draftVia (notProjection : kind ≠ .projection)
    (takes : ∀ place bindings, (take place bindings).TakesOver bindings) :
    ∀ {condition : Condition} {place : List Nat} {draft : Draft},
      draftVia take kind place condition = .ok draft →
      (∀ leaf ∈ condition.tests, ¬ leaf.2.Miscounts) ∧ draft.Fulfils kind (condition.demands kind)
  | .test path attributeTest, place, draft, drafted => by
    rw [draftVia] at drafted
    simpa [demands, demandsOf, tests] using fulfils_test notProjection drafted
  | .all conditions, place, draft, drafted => by
    rw [draftVia] at drafted
    obtain ⟨parts, areDrafted, built⟩ := bind_eq_ok.1 drafted
    obtain ⟨count, fulfilled⟩ := fulfil_draftAllVia notProjection takes areDrafted
    exact ⟨count, fulfils_join (fun index => takes (index :: place)) fulfilled built⟩
  | .any conditions, place, draft, drafted => by
    rw [draftVia] at drafted
    obtain ⟨parts, areDrafted, built⟩ := bind_eq_ok.1 drafted
    obtain ⟨count, fulfilled⟩ := fulfil_draftAllVia notProjection takes areDrafted
    exact ⟨count, fulfils_join (fun index => takes (index :: place)) fulfilled built⟩
  | .not condition, place, draft, drafted => by
    rw [draftVia] at drafted
    obtain ⟨inner, isDrafted, negated⟩ := bind_eq_ok.1 drafted
    obtain rfl := Except.ok.inj negated
    obtain ⟨count, fulfils⟩ := fulfils_draftVia notProjection takes isDrafted
    exact ⟨count, fulfils_negate fulfils⟩

theorem fulfil_draftAllVia (notProjection : kind ≠ .projection)
    (takes : ∀ place bindings, (take place bindings).TakesOver bindings) :
    ∀ {conditions : List Condition} {place : List Nat} {index : Nat} {parts : List Draft},
      draftAllVia take kind place index conditions = .ok parts →
      (∀ leaf ∈ allTests conditions, ¬ leaf.2.Miscounts) ∧ AreFulfilled kind parts conditions
  | [], _, _, parts, drafted => by
    rw [draftAllVia] at drafted
    obtain rfl := Except.ok.inj drafted
    exact ⟨by simp [allTests], .nil⟩
  | condition :: conditions, place, index, parts, drafted => by
    rw [draftAllVia] at drafted
    obtain ⟨first, isDrafted, rest⟩ := bind_eq_ok.1 drafted
    obtain ⟨others, areDrafted, answer⟩ := bind_eq_ok.1 rest
    obtain rfl := Except.ok.inj answer
    obtain ⟨count, fulfils⟩ := fulfils_draftVia notProjection takes isDrafted
    obtain ⟨countOthers, fulfilled⟩ := fulfil_draftAllVia notProjection takes areDrafted
    rw [allTests]
    exact ⟨List.forall_mem_append.2 ⟨count, countOthers⟩, .cons fulfils fulfilled⟩

end

mutual

/-- A condition is drafted if no test has the wrong number of values and all demands can be granted. -/
theorem exists_draftVia (notProjection : kind ≠ .projection)
    (takes : ∀ place bindings, (take place bindings).TakesOver bindings) :
    ∀ (condition : Condition) {bindings : Bindings} (place : List Nat),
      (∀ leaf ∈ condition.tests, ¬ leaf.2.Miscounts) →
      Bindings.Gains {} (condition.demands kind) bindings →
      ∃ draft, draftVia take kind place condition = .ok draft
  | .test path attributeTest, bindings, place, count, gains => by
    have counts : ¬ attributeTest.Miscounts := count (path, attributeTest) (by simp [tests])
    have gains : Bindings.Gains {} (attributeTest.demands kind path) bindings := by
      simpa [demands, demandsOf, tests] using gains
    -- bindings that grant all demands grant those of each step, whatever the order
    obtain ⟨⟨⟩, draft, run⟩ :=
      (demands_draftTest notProjection path counts).succeeds { kind } rfl gains
    rw [draftVia]
    exact ⟨draft, build_of_succeeds run⟩
  | .all conditions, bindings, place, count, gains => by
    obtain ⟨parts, areDrafted⟩ := exists_draftAllVia notProjection takes place 0 count gains
    obtain ⟨-, fulfilled⟩ := fulfil_draftAllVia notProjection takes areDrafted
    rw [draftVia, areDrafted]
    exact exists_join (fun index => takes (index :: place)) fulfilled gains
  | .any conditions, bindings, place, count, gains => by
    obtain ⟨parts, areDrafted⟩ := exists_draftAllVia notProjection takes place 0 count gains
    obtain ⟨-, fulfilled⟩ := fulfil_draftAllVia notProjection takes areDrafted
    rw [draftVia, areDrafted]
    exact exists_join (fun index => takes (index :: place)) fulfilled gains
  | .not condition, bindings, place, count, gains => by
    obtain ⟨inner, isDrafted⟩ := exists_draftVia notProjection takes condition (0 :: place) count gains
    rw [draftVia, isDrafted]
    exact ⟨_, rfl⟩

theorem exists_draftAllVia (notProjection : kind ≠ .projection)
    (takes : ∀ place bindings, (take place bindings).TakesOver bindings) :
    ∀ {conditions : List Condition} {bindings : Bindings} (place : List Nat) (index : Nat),
      (∀ leaf ∈ allTests conditions, ¬ leaf.2.Miscounts) →
      Bindings.Gains {} (demandsOf kind (allTests conditions)) bindings →
      ∃ parts, draftAllVia take kind place index conditions = .ok parts
  | [], _, _, _, _, _ => by
    rw [draftAllVia]
    exact ⟨[], rfl⟩
  | condition :: conditions, bindings, place, index, count, gains => by
    rw [allTests] at count gains
    rw [demandsOf_append] at gains
    obtain ⟨count, countOthers⟩ := List.forall_mem_append.1 count
    obtain ⟨_, gainsFirst⟩ := Bindings.exists_gains_of_subset gains (List.subset_append_left _ _)
    obtain ⟨_, gainsOthers⟩ := Bindings.exists_gains_of_subset gains (List.subset_append_right _ _)
    obtain ⟨first, isDrafted⟩ := exists_draftVia notProjection takes condition (index :: place) count
      gainsFirst
    obtain ⟨others, areDrafted⟩ :=
      exists_draftAllVia notProjection takes place (index + 1) countOthers gainsOthers
    rw [draftAllVia, isDrafted, areDrafted]
    exact ⟨first :: others, rfl⟩

end

/-- The bindings of a condition are what its tests demand, in whatever order they are taken over. -/
theorem bindings_draftVia_eq_ok_iff (notProjection : kind ≠ .projection)
    (takes : ∀ place bindings, (take place bindings).TakesOver bindings) (place : List Nat)
    (condition : Condition) (bindings : Bindings) :
    (·.bindings) <$> draftVia take kind place condition = .ok bindings ↔
      (∀ leaf ∈ condition.tests, ¬ leaf.2.Miscounts) ∧
        Bindings.Gains {} (condition.demands kind) bindings := by
  rw [map_eq_ok]
  constructor
  · rintro ⟨draft, drafted, rfl⟩
    obtain ⟨count, fulfils⟩ := fulfils_draftVia notProjection takes drafted
    exact ⟨count, fulfils.gains⟩
  · rintro ⟨count, gains⟩
    obtain ⟨draft, drafted⟩ := exists_draftVia notProjection takes condition place count gains
    obtain ⟨-, fulfils⟩ := fulfils_draftVia notProjection takes drafted
    exact ⟨draft, drafted, fulfils.gains.unique gains⟩

theorem bindings_draft_eq_ok_iff (notProjection : kind ≠ .projection) (condition : Condition)
    (bindings : Bindings) :
    (·.bindings) <$> condition.draft kind = .ok bindings ↔
      (∀ leaf ∈ condition.tests, ¬ leaf.2.Miscounts) ∧
        Bindings.Gains {} (condition.demands kind) bindings := by
  rw [draft_eq_draftVia kind []]
  exact bindings_draftVia_eq_ok_iff notProjection (fun _ => Binding.takesOver_all) [] condition bindings

theorem mem_demandsOf_congr {first second : List (String × AttributeTest)}
    (same : ∀ leaf, leaf ∈ first ↔ leaf ∈ second) (demand : Demand) :
    demand ∈ demandsOf kind first ↔ demand ∈ demandsOf kind second := by
  simp only [demandsOf, List.mem_flatMap, same]

theorem draft_eq_error_iff (notProjection : kind ≠ .projection) (condition : Condition) :
    (∃ error, condition.draft kind = .error error) ↔
      (∃ leaf ∈ condition.tests, leaf.2.Miscounts) ∨
        ∃ first ∈ condition.demands kind, ∃ second ∈ condition.demands kind, first.Conflict second := by
  have drafted_iff := bindings_draft_eq_ok_iff notProjection condition
  constructor
  · rintro ⟨error, failed⟩
    -- without a wrong count and a conflict all demands can be granted, and then the draft succeeds
    by_contra neither
    rw [not_or] at neither
    obtain ⟨bindings, gains⟩ : ∃ bindings, Bindings.Gains {} (condition.demands kind) bindings := by
      refine Bindings.exists_gains_iff.2 fun first isAsked second isKnown conflict => neither.2 ?_
      exact ⟨first, isAsked, second, by simpa using isKnown, conflict⟩
    have drafted := (drafted_iff bindings).2
      ⟨fun leaf isLeaf miscounts => neither.1 ⟨leaf, isLeaf, miscounts⟩, gains⟩
    rw [failed] at drafted
    cases drafted
  · intro fails
    cases drafted : condition.draft kind with
    | error error => exact ⟨error, rfl⟩
    | ok draft =>
      obtain ⟨count, gains⟩ := (drafted_iff draft.bindings).1 (map_eq_ok.2 ⟨draft, drafted, rfl⟩)
      rcases fails with ⟨leaf, isLeaf, miscounts⟩ | ⟨first, isFirst, second, isSecond, conflict⟩
      · exact absurd miscounts (count leaf isLeaf)
      · exact absurd conflict
          (Bindings.exists_gains_iff.1 ⟨_, gains⟩ first isFirst second (.inr isSecond))

/-- Drafting fails if and only if a test has the wrong number of values or the tests demand different
things of one placeholder; if it succeeds, the bindings are what the tests demand.  So neither the
structure of a condition plays a part nor the order in which bindings are taken over. -/
theorem draft_outcome (notProjection : kind ≠ .projection) (condition : Condition) :
    ((∃ error, condition.draft kind = .error error) ↔
      (∃ leaf ∈ condition.tests, leaf.2.Miscounts) ∨
        ∃ first ∈ condition.demands kind, ∃ second ∈ condition.demands kind, first.Conflict second) ∧
    (∀ draft, condition.draft kind = .ok draft →
      ∀ demand, draft.bindings.Grants demand ↔ demand ∈ condition.demands kind) ∧
    (∀ other : Condition, (∀ leaf, leaf ∈ other.tests ↔ leaf ∈ condition.tests) → ∀ bindings,
      (·.bindings) <$> other.draft kind = .ok bindings ↔
        (·.bindings) <$> condition.draft kind = .ok bindings) ∧
    ∀ take : List Nat → Bindings → Binding Unit,
      (∀ place bindings, (take place bindings).TakesOver bindings) → ∀ place bindings,
        (·.bindings) <$> condition.draftVia take kind place = .ok bindings ↔
          (·.bindings) <$> condition.draft kind = .ok bindings := by
  refine ⟨draft_eq_error_iff notProjection condition, ?_, ?_, ?_⟩
  · intro draft drafted demand
    have gains := ((bindings_draft_eq_ok_iff notProjection condition draft.bindings).1
      (map_eq_ok.2 ⟨draft, drafted, rfl⟩)).2
    rw [gains demand]
    simp
  · intro other same bindings
    rw [bindings_draft_eq_ok_iff notProjection, bindings_draft_eq_ok_iff notProjection]
    exact and_congr (forall_congr' fun leaf => by rw [same])
      (Bindings.gains_congr (mem_demandsOf_congr same))
  · intro take takes place bindings
    rw [bindings_draft_eq_ok_iff notProjection]
    exact bindings_draftVia_eq_ok_iff notProjection takes place condition bindings

end Outcomes

def underscored : Condition :=
  .all [.not (.any [.test "id" .present, .test "a.b" (.size (.compare .less (.number "3")))]),
    .any [.all [], .test "a_b" (.inList [.string "x"])]]

theorem draft_outcome_underscored :
    ExpressionKind.condition ≠ .projection ∧
    Demand.Conflict (.name "#CE_a_b" "b") (.name "#CE_a_b" "a_b") ∧
    ∃ error, underscored.draft .condition = .error error := by
  have conflict : Demand.Conflict (.name "#CE_a_b" "b") (.name "#CE_a_b" "a_b") := .name (by decide)
  refine ⟨by decide, conflict, (draft_outcome (by decide) underscored).1.2 (.inr ?_)⟩
  exact ⟨_, by decide, _, by decide, conflict⟩

end Condition

end SingleTable
