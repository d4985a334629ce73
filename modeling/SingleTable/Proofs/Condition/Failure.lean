import SingleTable.Proofs.Condition.Success
import SingleTable.Proofs.Expression.Failure

/-!
# What a failed step leaves on a draft

A test binds its values first, then writes a blank or the start of a call, binds the names of its
path, and writes the rest only when nothing can fail any more.  So wherever it fails, the draft has its
old text with no more than an opening behind it, and the demands met so far (`Drafting.FailsOver`).  A
test that is refused for the values it is given leaves the draft as it was (`Drafting.Refuses`), and
joining another draft binds everything before it writes.
-/

namespace SingleTable

namespace Draft

@[simp] theorem push_empty (draft : Draft) : draft.push "" = draft := by simp [push]

theorem push_push (draft : Draft) (first second : String) :
    (draft.push first).push second = draft.push (first ++ second) := by
  simp [push, String.append_assoc]

theorem pushBlank_cases (draft : Draft) : draft.pushBlank = draft ∨ draft.pushBlank = draft.push " " := by
  unfold pushBlank
  split
  · exact .inl rfl
  · split
    · exact .inl rfl
    · exact .inr rfl

end Draft

namespace Drafting

variable {α β : Type} {kind : ExpressionKind} {asked others : List Demand}

/-! ## Steps that are refused -/

/-- A computation always fails on drafts of a kind, and leaves them as they were. -/
def Refuses (steps : Drafting α) (kind : ExpressionKind) : Prop :=
  ∀ before, before.kind = kind → (∀ answer after, ¬ Succeeds steps before answer after) ∧
    ∀ error after, Fails steps before error after → after = before

theorem refuses_throw (error : Error) : Refuses (throw error : Drafting α) kind := by
  intro before _
  exact ⟨fun _ _ => not_succeeds_throw, fun _ _ failed => (fails_throw.1 failed).2⟩

theorem Refuses.bind {step : Drafting α} {next : α → Drafting β} (refuses : Refuses step kind) :
    Refuses (step >>= next) kind := by
  intro before isKind
  obtain ⟨never, unchanged⟩ := refuses before isKind
  constructor
  · intro answer after run
    obtain ⟨middle, state, run, -⟩ := succeeds_bind.1 run
    exact never middle state run
  · intro error after failed
    rcases fails_bind.1 failed with failed | ⟨middle, state, run, -⟩
    · exact unchanged error after failed
    · exact absurd run (never middle state)

theorem Refuses.map {step : Drafting α} {f : α → β} (refuses : Refuses step kind) :
    Refuses (f <$> step) kind :=
  refuses.bind

/-- A projection takes no values. -/
theorem refuses_bindValue (path suffix : String) (value : Value) :
    Refuses (bindValue path suffix value) .projection := by
  intro before isKind
  have thrown : (bindValue path suffix value).run.run before =
      ((.error (.valueInProjection path), before) : Except Error String × Draft) := by
    cases before
    cases isKind
    rfl
  constructor
  · intro answer after run
    rw [Succeeds, thrown] at run
    cases run
  · intro error after failed
    rw [Fails, thrown] at failed
    exact (Prod.mk.inj failed).2.symm

/-! ## Steps that only bind -/

/-- A computation on drafts of a kind changes nothing but the bindings: it leaves its demands met, or
those before the one over which it fails. -/
structure OnlyBinds (steps : Drafting α) (kind : ExpressionKind) (asked : List Demand) : Prop where
  succeeds {before after : Draft} {answer : α} (run : Succeeds steps before answer after)
    (isKind : before.kind = kind) :
    ∃ bindings, after = { before with bindings } ∧ before.bindings.Gains asked bindings
  fails {before after : Draft} {error : Error} (failed : Fails steps before error after)
    (isKind : before.kind = kind) :
    ∃ bindings, after = { before with bindings } ∧ before.bindings.Clashes asked bindings

theorem onlyBinds_pure (answer : α) : OnlyBinds (pure answer) kind [] where
  succeeds run _ := by
    obtain ⟨rfl, rfl⟩ := succeeds_pure.1 run
    exact ⟨_, rfl, Bindings.gains_nil.2 rfl⟩
  fails failed _ := absurd failed not_fails_pure

theorem OnlyBinds.bind {step : Drafting α} {next : α → Drafting β} (first : OnlyBinds step kind asked)
    (second : ∀ answer, OnlyBinds (next answer) kind others) :
    OnlyBinds (step >>= next) kind (asked ++ others) where
  succeeds run isKind := by
    obtain ⟨answer, state, runFirst, runSecond⟩ := succeeds_bind.1 run
    obtain ⟨middle, rfl, gains⟩ := first.succeeds runFirst isKind
    obtain ⟨bindings, rfl, gainsOthers⟩ := (second answer).succeeds runSecond isKind
    exact ⟨bindings, rfl, gains.append gainsOthers⟩
  fails failed isKind := by
    rcases fails_bind.1 failed with failed | ⟨answer, state, runFirst, failed⟩
    · obtain ⟨bindings, rfl, clashes⟩ := first.fails failed isKind
      exact ⟨bindings, rfl, clashes.append others⟩
    · obtain ⟨middle, rfl, gains⟩ := first.succeeds runFirst isKind
      obtain ⟨bindings, rfl, clashes⟩ := (second answer).fails failed isKind
      exact ⟨bindings, rfl, gains.clashes clashes⟩

/-- What demands nothing more at the end. -/
theorem OnlyBinds.ending {step : Drafting α} {next : α → Drafting β} (first : OnlyBinds step kind asked)
    (nothing : ∀ answer, OnlyBinds (next answer) kind []) : OnlyBinds (step >>= next) kind asked := by
  simpa using first.bind nothing

theorem onlyBinds_bind {step : Binding α} {result : α} (demands : step.Demands result asked)
    (failsOver : step.FailsOver asked) : OnlyBinds (Drafting.bind step) kind asked where
  succeeds run _ := by
    obtain ⟨bindings, bound, rfl⟩ := (actsOn_bind _).succeeds_iff.1 run
    exact ⟨bindings, rfl, ((demands _ _ _).1 bound).2⟩
  fails failed _ := by
    obtain ⟨bindings, own, rfl⟩ := (actsOn_bind _).fails_iff.1 failed
    exact ⟨bindings, rfl, failsOver _ _ _ own⟩

theorem onlyBinds_kind (next : ExpressionKind → Drafting α) (onlyBinds : OnlyBinds (next kind) kind asked) :
    OnlyBinds (do next (← get).kind) kind asked where
  succeeds run isKind := by
    obtain ⟨_, _, got, run⟩ := succeeds_bind.1 run
    obtain ⟨rfl, rfl⟩ := succeeds_get.1 got
    subst isKind
    exact onlyBinds.succeeds run rfl
  fails failed isKind := by
    rcases fails_bind.1 failed with failed | ⟨_, _, got, failed⟩
    · exact absurd failed not_fails_get
    · obtain ⟨rfl, rfl⟩ := succeeds_get.1 got
      subst isKind
      exact onlyBinds.fails failed rfl

theorem onlyBinds_bindPath (path : String) : OnlyBinds (bindPath path) kind (kind.pathDemands path) :=
  onlyBinds_kind (fun kind => Drafting.bind (kind.bindPath path))
    (onlyBinds_bind (kind.demands_bindPath path) (kind.failsOver_bindPath path))

theorem onlyBinds_bindValue (notProjection : kind ≠ .projection) (path suffix : String) (value : Value) :
    OnlyBinds (bindValue path suffix value) kind [.value (kind.valuePlaceholder path suffix) value] :=
  onlyBinds_kind (fun kind => Drafting.bind (kind.bindValue path suffix value))
    (onlyBinds_bind (kind.demands_bindValue path notProjection suffix value)
      (kind.failsOver_bindValue path notProjection suffix value))

theorem onlyBinds_bindNumbered (notProjection : kind ≠ .projection) (path : String) (first : Nat)
    (values : List Value) : OnlyBinds (bindNumbered path first values) kind
      ((values.zipIdx first).map fun (value, index) =>
        .value (kind.valuePlaceholder path ("_" ++ index.repr)) value) := by
  induction values generalizing first with
  | nil => exact onlyBinds_pure []
  | cons value values inductionHypothesis =>
    refine (onlyBinds_bindValue notProjection path ("_" ++ first.repr) value).bind fun placeholder => ?_
    exact (inductionHypothesis (first + 1)).ending fun others => onlyBinds_pure (placeholder :: others)

/-! ## Steps that write -/

/-- A computation that fails on a draft of a kind leaves an opening at the end of the text, the demands
met before the one over which it fails, and everything else as it was. -/
def FailsOver (steps : Drafting α) (kind : ExpressionKind) (IsOpening : String → Prop)
    (asked : List Demand) : Prop :=
  ∀ before error after, Fails steps before error after → before.kind = kind →
    ∃ opening bindings, IsOpening opening ∧ after = { before.push opening with bindings } ∧
      before.bindings.Clashes asked bindings

section FailsOver

variable {IsOpening IsLonger : String → Prop} {steps : Drafting β}

theorem OnlyBinds.failsOver_bind {step : Drafting α} {next : α → Drafting β}
    (first : OnlyBinds step kind asked) (nothing : IsOpening "")
    (second : ∀ answer, FailsOver (next answer) kind IsOpening others) :
    FailsOver (step >>= next) kind IsOpening (asked ++ others) := by
  intro before error after failed isKind
  rcases fails_bind.1 failed with failed | ⟨answer, state, runFirst, failed⟩
  · obtain ⟨bindings, rfl, clashes⟩ := first.fails failed isKind
    exact ⟨"", bindings, nothing, by rw [Draft.push_empty], clashes.append others⟩
  · obtain ⟨middle, rfl, gains⟩ := first.succeeds runFirst isKind
    obtain ⟨opening, bindings, isOpening, rfl, clashes⟩ := second answer _ _ _ failed isKind
    exact ⟨opening, bindings, isOpening, rfl, gains.clashes clashes⟩

theorem FailsOver.push (text : String) (fails : FailsOver steps kind IsOpening asked)
    (longer : ∀ opening, IsOpening opening → IsLonger (text ++ opening)) :
    FailsOver (do modify (·.push text); steps) kind IsLonger asked := by
  intro before error after failed isKind
  rcases fails_bind.1 failed with failed | ⟨⟨⟩, state, run, failed⟩
  · exact absurd failed not_fails_modify
  · obtain rfl := succeeds_modify.1 run
    obtain ⟨opening, bindings, isOpening, rfl, clashes⟩ := fails _ _ _ failed isKind
    exact ⟨text ++ opening, bindings, longer opening isOpening, by rw [Draft.push_push], clashes⟩

theorem FailsOver.pushBlank (fails : FailsOver steps kind IsOpening asked)
    (same : ∀ opening, IsOpening opening → IsLonger opening)
    (longer : ∀ opening, IsOpening opening → IsLonger (" " ++ opening)) :
    FailsOver (do modify (·.pushBlank); steps) kind IsLonger asked := by
  intro before error after failed isKind
  rcases fails_bind.1 failed with failed | ⟨⟨⟩, state, run, failed⟩
  · exact absurd failed not_fails_modify
  · obtain rfl := succeeds_modify.1 run
    rcases before.pushBlank_cases with unchanged | pushed
    · rw [unchanged] at failed
      obtain ⟨opening, bindings, isOpening, rfl, clashes⟩ := fails _ _ _ failed isKind
      exact ⟨opening, bindings, same opening isOpening, rfl, clashes⟩
    · rw [pushed] at failed
      obtain ⟨opening, bindings, isOpening, rfl, clashes⟩ := fails _ _ _ failed isKind
      exact ⟨" " ++ opening, bindings, longer opening isOpening, by rw [Draft.push_push], clashes⟩

/-- A reference whose names cannot be bound is not written. -/
theorem failsOver_reference (path text : String) :
    FailsOver (do reference path; modify (·.push text)) kind (· = "") (kind.pathDemands path) := by
  intro before error after failed isKind
  rcases fails_bind.1 failed with failed | ⟨⟨⟩, _, -, failed⟩
  · rcases fails_bind.1 failed with failed | ⟨_, _, -, failed⟩
    · obtain ⟨bindings, rfl, clashes⟩ := (onlyBinds_bindPath path).fails failed isKind
      exact ⟨"", bindings, rfl, by rw [Draft.push_empty], clashes⟩
    · exact absurd failed not_fails_modify
  · exact absurd failed not_fails_modify

end FailsOver

end Drafting

/-! ## Tests -/

namespace AttributeTest

/-- What a failed test may leave at the end of the text: a blank at most, unless it is a call. -/
def MayLeave : AttributeTest → String → Prop
  | .compare .. | .between _ | .inList _ => fun opening => opening = "" ∨ opening = " "
  | .beginsWith _ | .contains _ | .present | .absent | .hasType _ => fun _ => True
  | .size test => test.MayLeave

theorem mayLeave_empty (test : AttributeTest) : test.MayLeave "" := by
  induction test with
  | compare | between | inList => exact .inl rfl
  | beginsWith | contains | present | absent | hasType => trivial
  | size test inductionHypothesis => exact inductionHypothesis

/-- A test is refused if it has the wrong number of values, or values where none can be bound. -/
def IsRefused (test : AttributeTest) (kind : ExpressionKind) : Prop :=
  test.Miscounts ∨ kind = .projection ∧ test.operands ≠ []

end AttributeTest

namespace Condition

open Drafting

variable {kind : ExpressionKind} (path : String)

theorem refuses_draftTest {test : AttributeTest} (refused : test.IsRefused kind) :
    Refuses (draftTest path test) kind := by
  induction test with
  | compare comparison value =>
    obtain ⟨rfl, -⟩ := refused.resolve_left id
    exact (refuses_bindValue path "" value).bind
  | beginsWith | contains | hasType =>
    obtain ⟨rfl, -⟩ := refused.resolve_left id
    exact (refuses_bindValue path "" _).map.bind
  | present | absent => exact absurd rfl (refused.resolve_left id).2
  | between values =>
    unfold draftTest between
    split
    · next low high =>
      obtain ⟨rfl, -⟩ := refused.resolve_left (fun miscounts => miscounts rfl)
      exact (refuses_bindValue path "_start" low).bind
    · exact refuses_throw _
  | inList values =>
    cases values with
    | nil => exact (refuses_throw _).bind
    | cons value values =>
      obtain ⟨rfl, -⟩ := refused.resolve_left (List.cons_ne_nil value values)
      have numbered : Refuses (bindNumbered path 0 (value :: values)) .projection :=
        (refuses_bindValue path "_0" value).bind
      exact numbered.bind
  | size test inductionHypothesis => exact (inductionHypothesis refused).bind

/-- A reference behind a blank, and a text behind it. -/
theorem failsOver_behindBlank (text : String) :
    Drafting.FailsOver (do modify (·.pushBlank); reference path; modify (·.push text)) kind
      (fun opening => opening = "" ∨ opening = " ") (kind.pathDemands path) := by
  refine (failsOver_reference path text).pushBlank (fun opening => .inl) ?_
  rintro _ rfl
  exact .inr rfl

theorem failsOver_call (function : AttributeFunction) (value : Option Value)
    (passes : kind = .projection → value = none) :
    Drafting.FailsOver (call function path value) kind (fun _ => True)
      ((value.toList.map fun value => .value (kind.valuePlaceholder path "") value)
        ++ kind.pathDemands path) := by
  have called (text : String) : Drafting.FailsOver (do
      modify (·.pushBlank)
      modify (·.push (function.text ++ "("))
      reference path
      modify (·.push text)) kind (fun _ => True) (kind.pathDemands path) := by
    have opened : Drafting.FailsOver (do
        modify (·.push (function.text ++ "("))
        reference path
        modify (·.push text)) kind (fun _ => True) (kind.pathDemands path) :=
      (failsOver_reference path text).push _ fun _ _ => trivial
    exact opened.pushBlank (fun _ _ => trivial) fun _ _ => trivial
  cases value with
  | none =>
    refine (onlyBinds_pure none).failsOver_bind trivial fun placeholder => ?_
    cases placeholder <;> exact called _
  | some value =>
    have notProjection : kind ≠ .projection := fun isProjection => nomatch passes isProjection
    have bound := (onlyBinds_bindValue notProjection path "" value).ending fun text =>
      onlyBinds_pure (some text)
    refine bound.failsOver_bind trivial fun placeholder => ?_
    cases placeholder <;> exact called _

theorem inList_cons (value : Value) (values : List Value) :
    inList path (value :: values) = (do
      let placeholders ← bindNumbered path 0 (value :: values)
      modify (·.pushBlank)
      reference path
      modify (·.push (" IN (" ++ ", ".intercalate placeholders ++ ")"))) := by
  unfold inList
  rfl

theorem failsOver_inList (notProjection : kind ≠ .projection) (value : Value) (values : List Value) :
    Drafting.FailsOver (inList path (value :: values)) kind (fun opening => opening = "" ∨ opening = " ")
      (((value :: values).zipIdx.map fun (value, index) =>
          .value (kind.valuePlaceholder path ("_" ++ index.repr)) value) ++ kind.pathDemands path) := by
  rw [inList_cons]
  exact (onlyBinds_bindNumbered notProjection path 0 (value :: values)).failsOver_bind (.inl rfl)
    fun _ => failsOver_behindBlank path _

/-- A test that is not refused fails over one of its demands. -/
theorem failsOver_draftTest {test : AttributeTest} (passes : ¬ test.IsRefused kind) :
    Drafting.FailsOver (draftTest path test) kind test.MayLeave (test.demands kind path) := by
  obtain ⟨counts, valueless⟩ := not_or.1 passes
  replace valueless (isProjection : kind = .projection) : test.operands = [] :=
    Decidable.not_not.1 fun nonempty => valueless ⟨isProjection, nonempty⟩
  induction test with
  | compare comparison value =>
    have notProjection : kind ≠ .projection := fun isProjection => nomatch valueless isProjection
    exact (onlyBinds_bindValue notProjection path "" value).failsOver_bind (.inl rfl) fun _ =>
      failsOver_behindBlank path _
  | beginsWith | contains | hasType =>
    exact failsOver_call path _ _ fun isProjection => nomatch valueless isProjection
  | present | absent => exact failsOver_call path _ none fun _ => rfl
  | between values =>
    obtain ⟨low, high, rfl⟩ : ∃ low high, values = [low, high] :=
      List.length_eq_two.1 (Decidable.not_not.1 counts)
    have notProjection : kind ≠ .projection := fun isProjection => nomatch valueless isProjection
    exact (onlyBinds_bindValue notProjection path "_start" low).failsOver_bind (.inl rfl) fun _ =>
      (onlyBinds_bindValue notProjection path "_end" high).failsOver_bind (.inl rfl) fun _ =>
        failsOver_behindBlank path _
  | inList values =>
    cases values with
    | nil => exact absurd rfl counts
    | cons value values =>
      have notProjection : kind ≠ .projection := fun isProjection => nomatch valueless isProjection
      rw [AttributeTest.demands, AttributeTest.operands, List.map_map]
      exact failsOver_inList path notProjection value values
  | size test inductionHypothesis =>
    intro before error after failed isKind
    rcases fails_bind.1 failed with failed | ⟨⟨⟩, _, -, failed⟩
    · exact inductionHypothesis passes counts valueless before error after failed isKind
    · exact absurd failed not_fails_modify

end Condition

/-! ## Joined drafts -/

/-- Taking bindings over fails over their entries, in the order in which they come. -/
theorem Binding.TakesOver.failsOver {take : Binding Unit} {bindings : Bindings}
    (takes : take.TakesOver bindings) :
    ∃ asked, asked.Perm bindings.demands ∧ take.FailsOver asked := by
  obtain ⟨names, values, sameNames, sameValues, rfl⟩ := takes
  exact ⟨_, (sameNames.map _).append (sameValues.map _), failsOver_entries names values⟩

theorem Drafting.failsOver_mergeVia {take : Binding Unit} {asked : List Demand}
    (failsOver : take.FailsOver asked) (other : Draft) (connective : Connective)
    (kind : ExpressionKind) : FailsOver (mergeVia take other connective) kind (· = "") asked := by
  intro before error after failed _
  unfold mergeVia at failed
  split at failed
  · exact absurd failed not_fails_pure
  · -- the text is joined only after all bindings were taken over
    rcases fails_bind.1 failed with failed | ⟨⟨⟩, _, -, failed⟩
    · obtain ⟨bindings, own, rfl⟩ := (actsOn_bind _).fails_iff.1 failed
      exact ⟨"", bindings, rfl, by rw [Draft.push_empty], failsOver _ _ _ own⟩
    · exact absurd failed not_fails_modify

/-! ## Steps -/

/-- The steps by which a draft grows. -/
inductive DraftStep where
  | test (path : String) (test : AttributeTest)
  | size
  | negate
  | exclude (other : Draft)
  | merge (other : Draft) (connective : Connective)

namespace DraftStep

def perform : DraftStep → Drafting Unit
  | test path attributeTest => Condition.draftTest path attributeTest
  | size => Drafting.size
  | negate => Drafting.negate
  | exclude other => Drafting.exclude other
  | merge other connective => Drafting.merge other connective

def performVia (take : Bindings → Binding Unit) : DraftStep → Drafting Unit
  | exclude other =>
    Drafting.mergeVia (take other.bindings) (Drafting.negate.run.run other).2 .and
  | merge other connective => Drafting.mergeVia (take other.bindings) other connective
  | step => step.perform

theorem perform_eq (step : DraftStep) : step.perform = step.performVia Binding.all := by
  cases step with
  | exclude other =>
    have bindings_eq : (Drafting.negate.run.run other).2.bindings = other.bindings := by
      change (if other.isEmpty then other else _).bindings = _
      split <;> rfl
    change Drafting.merge (Drafting.negate.run.run other).2 .and = _
    unfold Drafting.merge
    rw [bindings_eq]
    rfl
  | test | size | negate | merge => rfl

/-- What a step demands, in an order in which it may do so.  Bindings of other drafts come in any
order. -/
def Asks (kind : ExpressionKind) : DraftStep → List Demand → Prop
  | test path attributeTest => fun asked => asked = attributeTest.demands kind path
  | size | negate => fun asked => asked = []
  | exclude other | merge other _ => fun asked => asked.Perm other.bindings.demands

/-- What a failed step may leave at the end of the text. -/
def MayLeave : DraftStep → String → Prop
  | test _ attributeTest => attributeTest.MayLeave
  | size | negate | exclude _ | merge .. => fun opening => opening = ""

/-- A step is refused if its test is: for the number of its values, or for a value in a projection. -/
def IsRefused (kind : ExpressionKind) : DraftStep → Prop
  | test _ attributeTest => attributeTest.IsRefused kind
  | size | negate | exclude _ | merge .. => False

/-- What a failed step leaves.  A step that is refused leaves the draft as it was.  Any other leaves
everything that was bound before, the demands met before the one over which it fails, and the old
text with what the step may leave behind it. -/
structure LeavesFailed (step : DraftStep) (before after : Draft) : Prop where
  within : before.bindings.Within after.bindings
  unchanged : step.IsRefused before.kind → after = before
  met : ¬ step.IsRefused before.kind → ∃ asked, step.Asks before.kind asked ∧
    before.bindings.Clashes asked after.bindings
  text : ∃ opening, step.MayLeave opening ∧
    after = { before.push opening with bindings := after.bindings }

theorem leavesFailed_of_failsOver {step : DraftStep} {steps : Drafting Unit} {before after : Draft}
    {error : Error} {asked : List Demand} (passes : ¬ step.IsRefused before.kind)
    (asks : step.Asks before.kind asked)
    (failsOver : Drafting.FailsOver steps before.kind step.MayLeave asked)
    (failed : Fails steps before error after) : step.LeavesFailed before after := by
  obtain ⟨opening, bindings, mayLeave, rfl, clashes⟩ := failsOver _ _ _ failed rfl
  exact ⟨clashes.within, fun refused => absurd refused passes, fun _ => ⟨asked, asks, clashes⟩,
    opening, mayLeave, rfl⟩

/-- Whichever step fails, in whatever order bindings are taken over. -/
theorem leavesFailed {take : Bindings → Binding Unit}
    (takes : ∀ bindings, (take bindings).TakesOver bindings) {step : DraftStep} {before after : Draft}
    {error : Error} (failed : Fails (step.performVia take) before error after) :
    step.LeavesFailed before after := by
  cases step with
  | test path attributeTest =>
    by_cases refused : attributeTest.IsRefused before.kind
    · obtain ⟨-, unchanged⟩ := Condition.refuses_draftTest path refused before rfl
      obtain rfl := unchanged error after failed
      exact ⟨.refl _, fun _ => rfl, fun passes => absurd refused passes, "",
        attributeTest.mayLeave_empty, by rw [Draft.push_empty]⟩
    · exact leavesFailed_of_failsOver refused rfl (Condition.failsOver_draftTest path refused) failed
  | size => exact absurd failed not_fails_modify
  | negate => exact absurd failed not_fails_modify
  | exclude other =>
    obtain ⟨asked, isPerm, failsOver⟩ := (takes other.bindings).failsOver
    exact leavesFailed_of_failsOver id isPerm (Drafting.failsOver_mergeVia failsOver _ _ _) failed
  | merge other connective =>
    obtain ⟨asked, isPerm, failsOver⟩ := (takes other.bindings).failsOver
    exact leavesFailed_of_failsOver id isPerm (Drafting.failsOver_mergeVia failsOver _ _ _) failed

end DraftStep

end SingleTable
