import SingleTable.Proofs.Condition.Compilation
import SingleTable.Proofs.Expression.Demand

/-!
# What a test demands

A test demands that its values and the names of its path be bound, and it is drafted if they can be
(`Condition.demands_draftTest`), unless it has a number of values that it does not take
(`Condition.not_succeeds_draftTest`).  A test that is drafted has a text, so it is not lost when it
is joined to others (`Condition.isEmpty_of_draftTest`).
-/

namespace SingleTable

/-! ## Steps on drafts -/

namespace Drafting

/-- A computation on drafts of a kind fails unless its demands can be granted; if it succeeds it
leaves them granted, and nothing else. -/
structure Demands {α : Type} (steps : Drafting α) (kind : ExpressionKind) (asked : List Demand) :
    Prop where
  grants {before after : Draft} {answer : α} (isKind : before.kind = kind)
    (run : Succeeds steps before answer after) :
    after.kind = kind ∧ before.bindings.Gains asked after.bindings
  succeeds {bindings : Bindings} (before : Draft) (isKind : before.kind = kind)
    (gains : before.bindings.Gains asked bindings) : ∃ answer after, Succeeds steps before answer after

variable {α β : Type} {kind : ExpressionKind} {asked others : List Demand}

theorem demands_pure (answer : α) : Demands (pure answer) kind [] where
  grants isKind run := by
    obtain ⟨rfl, rfl⟩ := succeeds_pure.1 run
    exact ⟨isKind, Bindings.gains_nil.2 rfl⟩
  succeeds _ _ _ := ⟨answer, _, succeeds_pure.2 ⟨rfl, rfl⟩⟩

/-- What changes the text only demands nothing. -/
theorem demands_modify {f : Draft → Draft} (kind_eq : ∀ draft, (f draft).kind = draft.kind)
    (bindings_eq : ∀ draft, (f draft).bindings = draft.bindings) : Demands (modify f) kind [] where
  grants isKind run := by
    obtain rfl := succeeds_modify.1 run
    exact ⟨(kind_eq _).trans isKind, Bindings.gains_nil.2 (bindings_eq _)⟩
  succeeds _ _ _ := ⟨⟨⟩, _, succeeds_modify.2 rfl⟩

theorem Demands.bind {step : Drafting α} {next : α → Drafting β} (first : Demands step kind asked)
    (second : ∀ answer, Demands (next answer) kind others) :
    Demands (step >>= next) kind (asked ++ others) where
  grants isKind run := by
    obtain ⟨answer, state, runFirst, runSecond⟩ := succeeds_bind.1 run
    obtain ⟨isKindMiddle, gains⟩ := first.grants isKind runFirst
    obtain ⟨isKindAfter, gainsOthers⟩ := (second answer).grants isKindMiddle runSecond
    exact ⟨isKindAfter, gains.append gainsOthers⟩
  succeeds before isKind gains := by
    obtain ⟨middle, gainsFirst, gainsOthers⟩ := Bindings.gains_append_iff.1 gains
    obtain ⟨answer, state, runFirst⟩ := first.succeeds before isKind gainsFirst
    obtain ⟨isKindMiddle, gainsState⟩ := first.grants isKind runFirst
    obtain rfl := gainsFirst.unique gainsState
    obtain ⟨result, after, runSecond⟩ := (second answer).succeeds state isKindMiddle gainsOthers
    exact ⟨result, after, succeeds_bind.2 ⟨answer, state, runFirst, runSecond⟩⟩

theorem Demands.andThen {step : Drafting PUnit} {next : Drafting β} (first : Demands step kind asked)
    (second : Demands next kind others) : Demands (do step; next) kind (asked ++ others) :=
  first.bind fun _ => second

/-- What demands nothing more at the end. -/
theorem Demands.ending {step : Drafting α} {next : α → Drafting β} (demands : Demands step kind asked)
    (nothing : ∀ answer, Demands (next answer) kind []) : Demands (step >>= next) kind asked := by
  simpa using demands.bind nothing

theorem Demands.congr {steps : Drafting α} (demands : Demands steps kind asked)
    (same : ∀ demand, demand ∈ asked ↔ demand ∈ others) : Demands steps kind others where
  grants isKind run := by
    obtain ⟨isKindAfter, gains⟩ := demands.grants isKind run
    exact ⟨isKindAfter, (Bindings.gains_congr same).1 gains⟩
  succeeds before isKind gains := demands.succeeds before isKind ((Bindings.gains_congr same).2 gains)

theorem demands_bind {step : Binding α} {result : α} (demands : step.Demands result asked) :
    Demands (bind step) kind asked where
  grants isKind run := by
    obtain ⟨bindings, bound, rfl⟩ := (actsOn_bind _).succeeds_iff.1 run
    exact ⟨isKind, ((demands _ _ _).1 bound).2⟩
  succeeds _ _ gains := ⟨result, _, (actsOn_bind _).succeeds_iff.2 ⟨_, (demands _ _ _).2 ⟨rfl, gains⟩, rfl⟩⟩

/-- What depends on the kind of the draft only. -/
theorem demands_kind (next : ExpressionKind → Drafting α) (demands : Demands (next kind) kind asked) :
    Demands (do next (← get).kind) kind asked where
  grants isKind run := by
    obtain ⟨_, _, got, run⟩ := succeeds_bind.1 run
    obtain ⟨rfl, rfl⟩ := succeeds_get.1 got
    subst isKind
    exact demands.grants rfl run
  succeeds before isKind gains := by
    subst isKind
    obtain ⟨answer, after, run⟩ := demands.succeeds before rfl gains
    exact ⟨answer, after, succeeds_bind.2 ⟨_, _, succeeds_get.2 ⟨rfl, rfl⟩, run⟩⟩

/-! ## Tests -/

theorem demands_push (text : String) : Demands (modify (·.push text)) kind [] :=
  demands_modify (fun _ => rfl) (fun _ => rfl)

theorem demands_pushBlank : Demands (modify (·.pushBlank)) kind [] := by
  refine demands_modify (fun draft => ?_) (fun draft => ?_) <;>
  · unfold Draft.pushBlank
    split
    · rfl
    · split <;> rfl

theorem demands_reference (path : String) : Demands (reference path) kind (kind.pathDemands path) := by
  refine Demands.ending ?_ fun text => demands_modify (fun _ => rfl) (fun _ => rfl)
  exact demands_kind (fun kind => bind (kind.bindPath path)) (demands_bind (kind.demands_bindPath path))

theorem demands_bindValue (notProjection : kind ≠ .projection) (path suffix : String) (value : Value) :
    Demands (bindValue path suffix value) kind [.value (kind.valuePlaceholder path suffix) value] :=
  demands_kind (fun kind => bind (kind.bindValue path suffix value))
    (demands_bind (kind.demands_bindValue path notProjection suffix value))

theorem demands_bindNumbered (notProjection : kind ≠ .projection) (path : String) (first : Nat)
    (values : List Value) : Demands (bindNumbered path first values) kind
      ((values.zipIdx first).map fun (value, index) =>
        .value (kind.valuePlaceholder path ("_" ++ index.repr)) value) := by
  induction values generalizing first with
  | nil => exact demands_pure []
  | cons value values inductionHypothesis =>
    refine (demands_bindValue notProjection path ("_" ++ first.repr) value).bind fun placeholder => ?_
    exact (inductionHypothesis (first + 1)).ending fun others => demands_pure (placeholder :: others)

end Drafting

/-! ## A single test -/

namespace AttributeTest

/-- Whether a test is given a number of values that it does not take. -/
def Miscounts : AttributeTest → Prop
  | .between values => values.length ≠ 2
  | .inList values => values = []
  | .size test => test.Miscounts
  | .compare .. | .beginsWith _ | .contains _ | .present | .absent | .hasType _ => False

/-- The values that a test uses, each with the suffix of its placeholder. -/
def operands : AttributeTest → List (String × Value)
  | .compare _ value | .beginsWith value | .contains value => [("", value)]
  | .hasType code => [("", .string code)]
  | .between values => ["_start", "_end"].zip values
  | .inList values => values.zipIdx.map fun (value, index) => ("_" ++ index.repr, value)
  | .present | .absent => []
  | .size test => test.operands

/-- What the test of a path demands: a value for each value it uses, and a name for each segment. -/
def demands (kind : ExpressionKind) (path : String) (test : AttributeTest) : List Demand :=
  (test.operands.map fun (suffix, value) => .value (kind.valuePlaceholder path suffix) value)
    ++ kind.pathDemands path

end AttributeTest

namespace Condition

open Drafting

section Tests

variable {kind : ExpressionKind} (notProjection : kind ≠ .projection) (path : String)

omit notProjection in
/-- A reference and a text behind it, wherever the draft stands. -/
theorem demands_referenceThen {closing : Drafting Unit} (nothing : Drafting.Demands closing kind []) :
    Drafting.Demands (do modify (·.pushBlank); reference path; closing) kind (kind.pathDemands path) :=
  demands_pushBlank.andThen ((demands_reference path).ending fun _ => nothing)

omit notProjection in
theorem demands_called (text : String) {closing : Drafting Unit}
    (nothing : Drafting.Demands closing kind []) :
    Drafting.Demands (do modify (·.pushBlank); modify (·.push text); reference path; closing) kind
      (kind.pathDemands path) :=
  demands_pushBlank.andThen
    ((demands_push text).andThen ((demands_reference path).ending fun _ => nothing))

include notProjection

theorem demands_call (function : AttributeFunction) (value : Option Value) :
    Drafting.Demands (call function path value) kind
      ((value.toList.map fun value => .value (kind.valuePlaceholder path "") value)
        ++ kind.pathDemands path) := by
  cases value with
  | none =>
    refine (demands_pure none).bind fun placeholder => ?_
    cases placeholder <;> exact demands_called path _ (demands_push _)
  | some value =>
    have bound := (demands_bindValue notProjection path "" value).ending fun text =>
      demands_pure (some text)
    refine bound.bind fun placeholder => ?_
    cases placeholder <;> exact demands_called path _ (demands_push _)

theorem demands_between (low high : Value) :
    Drafting.Demands (between path [low, high]) kind
      ([.value (kind.valuePlaceholder path "_start") low, .value (kind.valuePlaceholder path "_end") high]
        ++ kind.pathDemands path) :=
  (demands_bindValue notProjection path "_start" low).bind fun _ =>
    (demands_bindValue notProjection path "_end" high).bind fun _ =>
      demands_referenceThen path (demands_push _)

theorem demands_inList {values : List Value} (nonempty : values ≠ []) :
    Drafting.Demands (inList path values) kind
      ((values.zipIdx.map fun (value, index) =>
          .value (kind.valuePlaceholder path ("_" ++ index.repr)) value) ++ kind.pathDemands path) := by
  cases values with
  | nil => exact absurd rfl nonempty
  | cons value values =>
    exact (demands_pure ⟨⟩).andThen
      ((demands_bindNumbered notProjection path 0 (value :: values)).bind fun _ =>
        demands_referenceThen path (demands_push _))

theorem demands_draftTest {test : AttributeTest} (counts : ¬ test.Miscounts) :
    Drafting.Demands (draftTest path test) kind (test.demands kind path) := by
  induction test with
  | compare comparison value =>
    exact (demands_bindValue notProjection path "" value).bind fun _ =>
      demands_referenceThen path (demands_push _)
  | beginsWith value | contains value | hasType code | present | absent =>
    exact demands_call notProjection path _ _
  | between values =>
    obtain ⟨low, high, rfl⟩ : ∃ low high, values = [low, high] :=
      List.length_eq_two.1 (Decidable.not_not.1 counts)
    exact demands_between notProjection path low high
  | inList values =>
    have demands := demands_inList notProjection path counts
    rwa [AttributeTest.demands, AttributeTest.operands, List.map_map]
  | size test inductionHypothesis =>
    exact (inductionHypothesis counts).ending fun _ => demands_modify (fun _ => rfl) (fun _ => rfl)

end Tests

/-- A computation leaves some text behind the reference emitted last. -/
def Ends (steps : Drafting Unit) : Prop :=
  ∀ before after, Succeeds steps before () after → after.after ≠ ""

theorem ends_push {text : String} (nonempty : text ≠ "") : Ends (modify (·.push text)) := by
  intro before after run
  obtain rfl := succeeds_modify.1 run
  simp [Draft.push, nonempty]

theorem Ends.behind {α : Type} {step : Drafting α} {next : α → Drafting Unit}
    (ends : ∀ answer, Ends (next answer)) : Ends (step >>= next) := by
  intro before after run
  obtain ⟨answer, state, -, runNext⟩ := succeeds_bind.1 run
  exact ends answer state after runNext

/-- A test that has the wrong number of values is refused, whatever the draft. -/
theorem not_succeeds_draftTest {path : String} {test : AttributeTest} (miscounts : test.Miscounts)
    {before after : Draft} : ¬ Succeeds (draftTest path test) before () after := by
  induction test generalizing after with
  | compare | beginsWith | contains | hasType | present | absent => exact miscounts.elim
  | between values =>
    intro run
    unfold draftTest between at run
    split at run
    · exact miscounts rfl
    · exact not_succeeds_throw run
  | inList values =>
    obtain rfl : values = [] := miscounts
    intro run
    obtain ⟨_, _, thrown, -⟩ := succeeds_bind.1 run
    exact not_succeeds_throw thrown
  | size test inductionHypothesis =>
    intro run
    obtain ⟨⟨⟩, _, runTest, -⟩ := succeeds_bind.1 run
    exact inductionHypothesis miscounts runTest

theorem ends_call (function : AttributeFunction) (path : String) (value : Option Value) :
    Ends (call function path value) := by
  have called {steps : Drafting Unit} (ends : Ends steps) : Ends (do
      modify (·.pushBlank)
      modify (·.push (function.text ++ "("))
      reference path
      steps) :=
    .behind fun _ => .behind fun _ => .behind fun _ => ends
  cases value <;> refine .behind fun placeholder => ?_ <;>
    cases placeholder <;> exact called (ends_push (by simp))

theorem ends_draftTest (path : String) (test : AttributeTest) : Ends (draftTest path test) := by
  induction test with
  | compare comparison value =>
    exact .behind fun _ => .behind fun _ => .behind fun _ => ends_push (by simp)
  | beginsWith | contains | hasType | present | absent => exact ends_call _ path _
  | between values =>
    unfold draftTest between
    split
    · exact .behind fun _ => .behind fun _ => .behind fun _ => .behind fun _ => ends_push (by simp)
    · exact fun _ _ run => absurd run not_succeeds_throw
  | inList values =>
    cases values with
    | nil =>
      have miscounts : (AttributeTest.inList []).Miscounts := rfl
      exact fun _ _ run => absurd run (not_succeeds_draftTest miscounts)
    | cons => exact .behind fun _ => .behind fun _ => .behind fun _ => ends_push (by simp)
  | size test inductionHypothesis =>
    intro before after run
    obtain ⟨⟨⟩, state, runTest, runSize⟩ := succeeds_bind.1 run
    obtain rfl := succeeds_modify.1 runSize
    exact inductionHypothesis before state runTest

/-- A test writes something. -/
theorem isEmpty_of_draftTest {path : String} {test : AttributeTest} {before after : Draft}
    (run : Succeeds (draftTest path test) before () after) : after.isEmpty = false := by
  have nonempty : after.after ≠ "" := ends_draftTest path test before after run
  simp [Draft.isEmpty, Draft.text, nonempty]

end Condition

end SingleTable
